import ComponentModel.Proofs.Conversion
import ComponentModel.Proofs.Dataflow
import ComponentModel.Proofs.Issues

/-!
# Derivatives of the first order

A derivative is one of the first order if it is by the variable of integration, once, and of a
state. The look at the derivatives compares each reference and each number with what stands directly
above it, so it accepts a derivative of another form: without a bound variable, with a degree that
is not written as a number, or of an expression. Such a derivative is rendered as its second child
is. In the models that can be solved, the derivatives of the first order are those with the expected
form whose second child is not the variable of integration itself.
-/

namespace ComponentModel

namespace Equation.Expr

/-! ## Derivatives in an expression -/

/-- A derivative with these children occurs in an expression. -/
inductive Differentiates (first second : Expr) : Expr → Prop where
  | here : Differentiates first second (apply .diff first second)
  | left {operator : Operator} {one other : Expr} (inside : Differentiates first second one) :
      Differentiates first second (apply operator one other)
  | right {operator : Operator} {one other : Expr} (inside : Differentiates first second other) :
      Differentiates first second (apply operator one other)

variable {first second expr : Expr}

/-- The mentions in a derivative are mentions of the whole expression. -/
theorem Differentiates.mem_mentions (occurs : Differentiates first second expr) {role : Role}
    {mention : Role × Nat} (mentioned : mention ∈ first.mentions .differentiated ∨
      mention ∈ second.mentions .differentiated) : mention ∈ expr.mentions role := by
  induction occurs generalizing role with
  | here => exact List.mem_append.mpr mentioned
  | left _ ih => exact List.mem_append_left _ ih
  | right _ ih => exact List.mem_append_right _ ih

/-- The findings in a derivative are findings of the whole expression. -/
theorem Differentiates.mem_findingsBelow (occurs : Differentiates first second expr)
    {finding : Finding}
    (found : ∀ above, finding ∈ first.findingsBelow ((.diff, second) :: above))
    (above : List (Operator × Expr)) : finding ∈ expr.findingsBelow above := by
  induction occurs generalizing above with
  | here => exact List.mem_append_left _ (found above)
  | left _ ih => exact List.mem_append_left _ (ih _)
  | right _ ih => exact List.mem_append_right _ (ih _)

theorem differentiates_apply {operator : Operator} {one other : Expr} :
    Differentiates first second (apply operator one other) ↔
      (operator = .diff ∧ first = one ∧ second = other) ∨ Differentiates first second one ∨
        Differentiates first second other := by
  constructor
  · intro occurs
    cases occurs with
    | here => exact .inl ⟨rfl, rfl, rfl⟩
    | left inside => exact .inr (.inl inside)
    | right inside => exact .inr (.inr inside)
  · rintro (⟨rfl, rfl, rfl⟩ | inside | inside)
    · exact .here
    · exact .left inside
    · exact .right inside

/-- A product with a number has the derivatives of the other factor. -/
theorem differentiates_times {written : String} :
    Differentiates first second (times written expr) ↔ Differentiates first second expr := by
  have number : ¬Differentiates first second (number written) := fun occurs => by cases occurs
  simp [times, differentiates_apply, number]

theorem differentiates_scaled {factor : Option Factor} :
    Differentiates first second (scaled factor expr) ↔ Differentiates first second expr := by
  cases factor with
  | none => rfl
  | some => exact differentiates_times

theorem differentiates_unscaled {factor : Option Factor} :
    Differentiates first second (unscaled factor expr) ↔ Differentiates first second expr := by
  cases factor with
  | none => rfl
  | some => exact differentiates_times

/-! ## Scaling -/

/-- A derivative occurs in an expression that has these children after scaling. -/
def DifferentiatesScaled (rule : FactorRule) (first second expr : Expr) : Prop :=
  ∃ one other, Differentiates one other expr ∧ first = one.rescale rule true ∧
    second = other.rescale rule true

variable {rule : FactorRule}

/-- The derivatives of an application whose children are scaled. -/
theorem DifferentiatesScaled.apply {operator : Operator} {kept : Bool} {left right : Expr}
    (inside : operator = .diff → kept = true)
    (leftHypothesis : Differentiates first second (left.rescale rule kept) →
      DifferentiatesScaled rule first second left)
    (rightHypothesis : Differentiates first second (right.rescale rule kept) →
      DifferentiatesScaled rule first second right)
    (occurs : Differentiates first second
      (.apply operator (left.rescale rule kept) (right.rescale rule kept))) :
    DifferentiatesScaled rule first second (.apply operator left right) := by
  rcases differentiates_apply.mp occurs with ⟨rfl, rfl, rfl⟩ | inLeft | inRight
  · rw [inside rfl]
    exact ⟨left, right, .here, rfl, rfl⟩
  · obtain ⟨one, other, within, same⟩ := leftHypothesis inLeft
    exact ⟨one, other, .left within, same⟩
  · obtain ⟨one, other, within, same⟩ := rightHypothesis inRight
    exact ⟨one, other, .right within, same⟩

/-- The derivatives of a scaled expression are those of the expression, scaled. -/
theorem differentiatesScaled_of_rescale {kept : Bool}
    (occurs : Differentiates first second (expr.rescale rule kept)) :
    DifferentiatesScaled rule first second expr := by
  fun_induction rescale rule kept expr with
  | case1 => cases occurs
  | case2 => cases occurs
  | case3 => cases occurs
  | case4 => cases differentiates_scaled.mp occurs
  | case5 kept left right other rate leftHypothesis rightHypothesis otherHypothesis =>
      rcases differentiates_apply.mp occurs with ⟨impossible, -⟩ | inRate | inOther
      · cases impossible
      · obtain ⟨one, two, within, same⟩ :=
          DifferentiatesScaled.apply (fun _ => rfl) leftHypothesis rightHypothesis inRate
        exact ⟨one, two, .left within, same⟩
      · obtain ⟨one, two, within, same⟩ := otherHypothesis (differentiates_scaled.mp inOther)
        exact ⟨one, two, .right within, same⟩
  | case6 kept left right rate leftHypothesis rightHypothesis =>
      exact .apply (fun _ => rfl) leftHypothesis rightHypothesis (differentiates_unscaled.mp occurs)
  | case7 kept operator left right _ notDiff bound leftHypothesis rightHypothesis =>
      exact .apply (fun isDiff => absurd isDiff notDiff) leftHypothesis rightHypothesis occurs

/-- What occurs in an application with other children, if it occurs in those as it did before. -/
theorem Differentiates.map {operator : Operator}
    {left right newLeft newRight newFirst newSecond : Expr}
    (occurs : Differentiates first second (apply operator left right))
    (here : operator = .diff → left = first → right = second →
      newLeft = newFirst ∧ newRight = newSecond)
    (leftHypothesis : Differentiates first second left → Differentiates newFirst newSecond newLeft)
    (rightHypothesis : Differentiates first second right →
      Differentiates newFirst newSecond newRight) :
    Differentiates newFirst newSecond (apply operator newLeft newRight) := by
  cases occurs with
  | here =>
      obtain ⟨rfl, rfl⟩ := here rfl rfl rfl
      exact .here
  | left inside => exact .left (leftHypothesis inside)
  | right inside => exact .right (rightHypothesis inside)

/-- Scaling the children of a derivative gives the derivative of the scaled children. -/
theorem Differentiates.rescale {kept : Bool} (occurs : Differentiates first second expr) :
    Differentiates (first.rescale rule true) (second.rescale rule true)
      (expr.rescale rule kept) := by
  have same : ∀ {left right : Expr}, left = first → right = second →
      left.rescale rule true = first.rescale rule true ∧
        right.rescale rule true = second.rescale rule true := by
    rintro _ _ rfl rfl
    exact ⟨rfl, rfl⟩
  fun_induction Expr.rescale rule kept expr with
  | case1 => cases occurs
  | case2 => cases occurs
  | case3 => cases occurs
  | case4 => cases occurs
  | case5 kept left right other rate leftHypothesis rightHypothesis otherHypothesis =>
      refine occurs.map (fun impossible => by cases impossible) ?_ fun inOther =>
        differentiates_scaled.mpr (otherHypothesis inOther)
      exact fun inRate => inRate.map (fun _ => same) leftHypothesis rightHypothesis
  | case6 kept left right rate leftHypothesis rightHypothesis =>
      exact differentiates_unscaled.mpr (occurs.map (fun _ => same) leftHypothesis rightHypothesis)
  | case7 kept operator left right _ notDiff bound leftHypothesis rightHypothesis =>
      exact occurs.map (fun isDiff => absurd isDiff notDiff) leftHypothesis rightHypothesis

/-- A number, or no expression, is the same before scaling. -/
theorem rescale_eq_leaf {kept : Bool} {leaf : Expr} (noOperator : leaf.operator? = none)
    (noReference : leaf.reference? = none) : expr.rescale rule kept = leaf ↔ expr = leaf := by
  have notApplied : ∀ operator one other, apply operator one other ≠ leaf := by
    rintro operator one other rfl
    cases noOperator
  have notReferred : ∀ declaration, reference declaration ≠ leaf := by
    rintro declaration rfl
    cases noReference
  fun_cases rescale rule kept expr with
  | case1 => rfl
  | case2 => rfl
  | case3 => rfl
  | case4 declaration =>
      cases rule declaration <;> simp [scaled, times, notApplied, notReferred]
  | case5 => simp [notApplied]
  | case6 left right rate =>
      cases rateFactor rule rate <;> simp [unscaled, times, rate, notApplied]
  | case7 => simp [notApplied]

/-! ## The expected form -/

/-- The number that is written as the degree of a bound variable, if there is any. -/
def degree? : Expr → Option (Option String)
  | absent => some none
  | apply .degree (number written) absent => some (some written)
  | _ => none

/-- The variable that a bound variable names, and its degree, in either order. -/
def boundBy? : Expr → Option (Nat × Option String)
  | apply .bvar (reference declaration) other =>
      other.degree?.map fun degree => (declaration, degree)
  | apply .bvar other (reference declaration) =>
      other.degree?.map fun degree => (declaration, degree)
  | _ => none

theorem degree?_eq_some {degree : Option String} :
    expr.degree? = some degree ↔ expr = absent ∧ degree = none ∨
      ∃ written, expr = apply .degree (number written) absent ∧ degree = some written := by
  unfold degree?
  split <;> simp_all [eq_comm]

/-- A bound variable with a variable and a degree, in either order. -/
theorem boundBy?_eq_some {declaration : Nat} {degree : Option String} :
    expr.boundBy? = some (declaration, degree) ↔ ∃ other, other.degree? = some degree ∧
      (expr = apply .bvar (reference declaration) other ∨
        expr = apply .bvar other (reference declaration)) := by
  have noDegree : ∀ named, (reference named).degree? = none := fun _ => rfl
  unfold boundBy?
  split
  case h_1 named other =>
    simp only [Option.map_eq_some_iff, Prod.mk.injEq]
    grind
  case h_2 other named notReference =>
    simp only [Option.map_eq_some_iff, Prod.mk.injEq]
    grind
  case h_3 notFirst notSecond =>
    simp only [reduceCtorEq, false_iff]
    grind

/-- Scaling keeps an application of an operator that it does not put in itself. -/
theorem rescale_eq_apply {kept : Bool} {operator : Operator} {left right : Expr}
    (notTimes : operator ≠ .times) (notAssignment : operator ≠ .assignment)
    (notDiff : operator ≠ .diff) :
    expr.rescale rule kept = apply operator left right ↔ ∃ one other,
      expr = apply operator one other ∧ left = one.rescale rule (operator == .bvar) ∧
        right = other.rescale rule (operator == .bvar) := by
  fun_cases rescale rule kept expr with
  | case1 => simp
  | case2 => simp
  | case3 => simp
  | case4 declaration => cases rule declaration <;> simp [scaled, times, notTimes.symm]
  | case5 => simp [notAssignment.symm]
  | case6 one other rate =>
      cases rateFactor rule rate <;>
        simp [unscaled, times, rate, notTimes.symm, notDiff.symm]
  | case7 => grind

/-- A degree is written before scaling as after it. -/
theorem degree?_of_rescale {kept : Bool} {degree : Option String}
    (written : (expr.rescale rule kept).degree? = some degree) : expr.degree? = some degree := by
  rw [degree?_eq_some] at written ⊢
  rcases written with ⟨absent, none⟩ | ⟨number, equal, some⟩
  · exact .inl ⟨(rescale_eq_leaf rfl rfl).mp absent, none⟩
  · obtain ⟨one, other, equal, isNumber, isAbsent⟩ :=
      (rescale_eq_apply (by decide) (by decide) (by decide)).mp equal
    obtain rfl := (rescale_eq_leaf rfl rfl).mp isNumber.symm
    obtain rfl := (rescale_eq_leaf rfl rfl).mp isAbsent.symm
    exact .inr ⟨number, equal, some⟩

/-- What is a bound variable of the expected form after scaling is the same one before. -/
theorem boundBy?_of_rescale {kept : Bool} {bound : Nat × Option String}
    (named : (expr.rescale rule kept).boundBy? = some bound) : expr.boundBy? = some bound := by
  obtain ⟨declaration, degree⟩ := bound
  rw [boundBy?_eq_some] at named ⊢
  obtain ⟨written, isDegree, same⟩ := named
  rw [rescale_eq_apply (by decide) (by decide) (by decide),
    rescale_eq_apply (by decide) (by decide) (by decide)] at same
  rcases same with ⟨one, other, equal, isReference, rfl⟩ | ⟨one, other, equal, rfl, isReference⟩
  all_goals
    obtain ⟨rfl, -⟩ := rescale_eq_reference.mp isReference.symm
  · exact ⟨other, degree?_of_rescale isDegree, .inl equal⟩
  · exact ⟨one, degree?_of_rescale isDegree, .inr equal⟩

/-- The variable that a derivative is by is mentioned as such. -/
theorem mem_mentions_of_boundBy? {declaration : Nat} {degree : Option String}
    (named : expr.boundBy? = some (declaration, degree)) :
    (.bound, declaration) ∈ expr.mentions .differentiated := by
  obtain ⟨other, -, rfl | rfl⟩ := boundBy?_eq_some.mp named
  · exact List.mem_append_left _ List.mem_cons_self
  · exact List.mem_append_right _ List.mem_cons_self

/-- A degree other than one is found, where a variable is differentiated. -/
theorem mem_findings_of_degree {declaration bound : Nat} {written : String}
    (occurs : Differentiates first (reference declaration) expr)
    (named : first.boundBy? = some (bound, some written)) (other : isFirstDegree written = false) :
    .notFirstOrder declaration ∈ expr.findings := by
  refine occurs.mem_findingsBelow (fun above => ?_) []
  obtain ⟨degree, isDegree, same⟩ := boundBy?_eq_some.mp named
  obtain ⟨-, impossible⟩ | ⟨_, rfl, isWritten⟩ := degree?_eq_some.mp isDegree
  · cases impossible
  · cases isWritten
    rcases same with rfl | rfl <;> simp [findingsBelow, other]

end Equation.Expr

namespace Analysis

open Code (Profile)
open Equation (Expr)
open Equation.Expr (Finding)

/-! ## Derivatives in analysed models -/

/-- Without issues, no degree other than one is found. -/
theorem not_mem_findings_of_issues {index : Index} {gathered : Gathered}
    (fine : (Differentiated.ofGathered index gathered).gathered.issues = []) (declaration : Nat) :
    .notFirstOrder declaration ∉
      gathered.equations.flatMap fun equation => equation.expr.findings := by
  let fits (noted : List Finding) (state : Differentiated) : Prop :=
    state.gathered.issues = [] → .notFirstOrder declaration ∉ noted
  have start : fits [] ⟨gathered, none⟩ := fun _ => List.not_mem_nil
  refine Differentiated.ofGathered_induction start (fun noted finding state holds fine => ?_) fine
  obtain ⟨before, other⟩ := Differentiated.issues_eq_nil_of_note fine
  simp [holds before, (other declaration).symm]

/-- A derivative of the first order: by the variable of integration, once, and of a state. -/
def AnalysedModel.IsFirstOrder (analysed : AnalysedModel) (index : Index) (left right : Expr) :
    Prop :=
  (∃ bound degree integration, left.boundBy? = some (bound, degree) ∧
    (∀ written ∈ degree, Expr.isFirstDegree written) ∧
    analysed.StandsFor index bound integration ∧ integration.type = .integrationVariable) ∧
  ∃ declaration state, right = .reference declaration ∧
    analysed.StandsFor index declaration state ∧ state.type = .state

namespace Stage

variable {model : Model} {result : AnalysedEquation} {left right : Expr}

/-- Without issues, a degree that is written is one. -/
theorem isFirstDegree_of_boundBy? (valid : (analyse model).type.isValid) {source : OrderedEquation}
    (membership : source ∈ built model) {declaration bound : Nat} {degree : Option String}
    (occurs : Expr.Differentiates left (.reference declaration) source.expr)
    (named : left.boundBy? = some (bound, degree)) :
    ∀ written ∈ degree, Expr.isFirstDegree written := by
  rintro written rfl
  obtain ⟨fine, -⟩ := analyse_eq valid
  by_contra other
  exact not_mem_findings_of_issues fine declaration (List.mem_flatMap.mpr
    ⟨source, membership, Expr.mem_findings_of_degree occurs named (by simpa using other)⟩)

/-- What derivatives are by stands for the variable of integration; what is differentiated stands
for it or for a state. -/
theorem exists_standsFor_of_mention (valid : (analyse model).type.isValid)
    {source : OrderedEquation}
    (membership : source ∈ built model) {role : Equation.Role} {declaration : Nat}
    (mentioned : (role, declaration) ∈ source.expr.mentions .plain) :
    ∃ found, (analyse model).StandsFor (index model) declaration found ∧
      (role = .bound → found.type = .integrationVariable) ∧
      (role = .differentiated → found.type = .state ∨ found.type = .integrationVariable) := by
  obtain ⟨record, found, bound⟩ := exists_boundTo valid membership mentioned
  refine ⟨found, standsFor valid (mentioned_lt membership mentioned) bound.recorded bound.entry,
    ?_, ?_⟩
  · rintro rfl
    exact type_of_bound valid membership mentioned bound
  · rintro rfl
    by_cases integrated : IsMentioned model .bound record
    · exact .inr ((type_eq_integrationVariable_iff valid bound.entry).mpr integrated)
    · refine .inl ((type_eq_state_iff valid bound.entry).mpr ⟨?_, integrated⟩)
      exact ⟨source, membership, declaration, mentioned, bound.recorded⟩

/-- A derivative in a reported equation of a model that can be solved is one of the first order
exactly if it has the expected form, with a degree that is a number if there is any, and is not of
the variable of integration itself. It is rendered as the element of the array of rates then. In
every derivative, what it is by stands for the variable of integration, and what is differentiated
for it or for a state. -/
theorem isFirstOrder_iff (model : Model) (valid : (analyse model).type.isValid)
    (reported : result ∈ (analyse model).equations)
    (occurs : Expr.Differentiates left right result.expr) :
    ((analyse model).IsFirstOrder (index model) left right ↔
      left.boundBy?.isSome ∧ ∃ declaration, right = .reference declaration ∧
        ¬∃ found, (analyse model).StandsFor (index model) declaration found ∧
          found.type = .integrationVariable) ∧
    ((analyse model).IsFirstOrder (index model) left right →
      ∃ declaration state, right = .reference declaration ∧
        (analyse model).StandsFor (index model) declaration state ∧ state.type = .state ∧
        ∀ (profile : Profile) rate,
          profile.code (profile.referenceText (analyse model)) rate (.apply .diff left right) =
            profile.variableText true .state state.place) ∧
    ∀ role declaration, (role, declaration) ∈ (Expr.apply .diff left right).mentions .plain →
      ∃ found, (analyse model).StandsFor (index model) declaration found ∧
        (role = .bound → found.type = .integrationVariable) ∧
        (role = .differentiated → found.type = .state ∨ found.type = .integrationVariable) := by
  obtain ⟨place, found⟩ := List.getElem?_of_mem reported
  obtain ⟨_, _, source, _, _, reportedAt⟩ := exists_reportedAt valid found
  have membership := reportedAt.membership
  have stands : ∀ role declaration,
      (role, declaration) ∈ (Expr.apply .diff left right).mentions .plain →
      ∃ found, (analyse model).StandsFor (index model) declaration found ∧
        (role = .bound → found.type = .integrationVariable) ∧
        (role = .differentiated → found.type = .state ∨ found.type = .integrationVariable) := by
    intro role declaration mentioned
    have inResult : (role, declaration) ∈ result.expr.mentions .plain :=
      occurs.mem_mentions (List.mem_append.mp mentioned)
    rw [reportedAt.expr, Expr.mentions_rescale _ _ _ _ (by simp)] at inResult
    exact exists_standsFor_of_mention valid membership inResult
  refine ⟨⟨?_, ?_⟩, ?_, stands⟩
  · rintro ⟨⟨bound, degree, _, named, -⟩, declaration, state, rfl, standsState, isState⟩
    refine ⟨by simp [named], declaration, rfl, ?_⟩
    rintro ⟨integration, standsIntegration, isIntegration⟩
    obtain ⟨sameType, -⟩ :=
      Prod.mk.inj (Option.some.inj (standsState.binding.symm.trans standsIntegration.binding))
    rw [isState, isIntegration] at sameType
    cases sameType
  · rintro ⟨expected, declaration, rfl, notIntegration⟩
    obtain ⟨⟨bound, degree⟩, named⟩ := Option.isSome_iff_exists.mp expected
    obtain ⟨integration, standsBound, isIntegration, -⟩ := stands .bound bound
      (List.mem_append_left _ (Expr.mem_mentions_of_boundBy? named))
    obtain ⟨state, standsState, -, isEither⟩ := stands .differentiated declaration
      (List.mem_append_right _ List.mem_cons_self)
    have isState := (isEither rfl).resolve_right fun isIntegration =>
      notIntegration ⟨state, standsState, isIntegration⟩
    rw [reportedAt.expr] at occurs
    obtain ⟨one, other, inSource, rfl, isReference⟩ := Expr.differentiatesScaled_of_rescale occurs
    obtain ⟨rfl, -⟩ := Expr.rescale_eq_reference.mp isReference.symm
    refine ⟨⟨bound, degree, integration, named, ?_, standsBound, isIntegration rfl⟩,
      declaration, state, rfl, standsState, isState⟩
    exact isFirstDegree_of_boundBy? valid membership inSource (Expr.boundBy?_of_rescale named)
  · rintro ⟨-, declaration, state, rfl, standsState, isState⟩
    refine ⟨declaration, state, rfl, standsState, isState, fun profile rate => ?_⟩
    change profile.referenceText (analyse model) true declaration = _
    rw [Profile.referenceText, standsState.binding, isState]

/-- The rate of a model with a rate that is a variable of its own is one of the first order. -/
theorem growth_isFirstOrder :
    (analyse growth).type.isValid ∧ ∃ result ∈ (analyse growth).equations, ∃ left right,
      Expr.Differentiates left right result.expr ∧
        (analyse growth).IsFirstOrder (index growth) left right := by
  have listed : (reported growth)[0]? = some 1 := by rw [reported_growth]; rfl
  obtain ⟨_, source, _, _, result, reportedAt⟩ := exists_reportedAt_of_mem valid_growth listed
  have foundSource := reportedAt.ordered.foundSource
  rw [built, gathered_growth] at foundSource
  obtain rfl := Option.some.inj foundSource
  have occurs : Expr.Differentiates (.apply .bvar (.reference 0) .absent) (.reference 1)
      result.expr := by
    rw [reportedAt.expr]
    exact .left .here
  refine ⟨valid_growth, result, List.mem_of_getElem? reportedAt.found, _, _, occurs, ?_⟩
  obtain ⟨expected, -⟩ := isFirstOrder_iff growth valid_growth
    (List.mem_of_getElem? reportedAt.found) occurs
  refine expected.mpr ⟨rfl, 1, rfl, ?_⟩
  rintro ⟨found, stands, isIntegration⟩
  obtain ⟨record, recorded, entry⟩ := exists_entry_of_standsFor valid_growth stands
  have type := (isEntry entry).type
  rw [registry_growth] at recorded type
  obtain rfl : 1 = record := Option.some.inj (by rw [← recorded]; cbv)
  rw [isIntegration] at type
  cases type

/-- An oscillation whose second derivative is written with the degree `1 + 1`. -/
def oscillator : Model :=
  single "oscillator"
    [⟨"t", "second", none, none⟩, ⟨"x", "dimensionless", some (.number 1), none⟩]
    ("<math><apply><eq/><apply><diff/><bvar><ci>t</ci><degree><apply><plus/><cn>1</cn>" ++
      "<cn>1</cn></apply></degree></bvar><ci>x</ci></apply>" ++
      "<apply><minus/><ci>x</ci></apply></apply></math>")

theorem gathered_oscillator : Gathered.ofIndex (index oscillator) =
    ⟨[⟨0, 0, 0, .unknown, none, none⟩, ⟨1, 1, 1, .constant, none, none⟩],
      [.new (.apply .assignment (.apply .diff (.apply .bvar (.reference 0)
        (.apply .degree (.apply .plus (.number "1") (.number "1")) .absent)) (.reference 1))
        (.apply .minus (.reference 1) .absent)) 0 [1] [1]], []⟩ := by
  cbv

theorem derivatives_oscillator : derivatives oscillator =
    ⟨⟨[⟨0, 0, 0, .integrationVariable, none, none⟩, ⟨1, 1, 1, .state, none, none⟩],
      (Gathered.ofIndex (index oscillator)).equations, []⟩, some 0⟩ := by
  rw [derivatives, gathered_oscillator]
  cbv

theorem registry_oscillator : (final oscillator).registry =
    [⟨0, 0, 0, .integrationVariable, none, none⟩, ⟨1, 1, 1, .state, some 0, some 0⟩] := by
  rw [final, start, derivatives_oscillator, gathered_oscillator]
  cbv

theorem reported_oscillator : reported oscillator = [0] := by
  rw [reported, final, start, derivatives_oscillator, gathered_oscillator]
  cbv

theorem type_oscillator : (analyse oscillator).type = .ode := by
  have gathered : (Gathered.ofIndex (index oscillator)).issues = [] := by rw [gathered_oscillator]
  have derived : (derivatives oscillator).gathered.issues = [] := by rw [derivatives_oscillator]
  rw [type_analyse gathered derived, registry_oscillator, derivatives_oscillator]
  rfl

/-- The second derivative is taken for one of the first order. -/
theorem oscillator_not_firstOrder :
    (analyse oscillator).type = .ode ∧ ∃ result ∈ (analyse oscillator).equations, ∃ left right,
      Expr.Differentiates left right result.expr ∧
        ¬(analyse oscillator).IsFirstOrder (index oscillator) left right := by
  have valid : (analyse oscillator).type.isValid := by
    rw [type_oscillator]
    rfl
  have listed : (reported oscillator)[0]? = some 0 := by rw [reported_oscillator]; rfl
  obtain ⟨_, source, _, _, result, reportedAt⟩ := exists_reportedAt_of_mem valid listed
  have foundSource := reportedAt.ordered.foundSource
  rw [built, gathered_oscillator] at foundSource
  obtain rfl := Option.some.inj foundSource
  refine ⟨type_oscillator, result, List.mem_of_getElem? reportedAt.found, _, _,
    reportedAt.expr ▸ (Expr.Differentiates.left .here).rescale, ?_⟩
  rintro ⟨⟨bound, degree, _, named, -⟩, -⟩
  cases Expr.boundBy?_of_rescale named

end Stage

end Analysis

end ComponentModel
