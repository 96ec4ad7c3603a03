import ComponentModel.Proofs.Initialisation

/-!
# Which equations a procedure evaluates

A schedule gives every equation of a timed model its place. True constants are evaluated while the
model is initialised, other constants and rates by the procedures of their own, and an algebraic
equation with the rates exactly if one of them depends on it. The last procedure evaluates what is
left and repeats the algebraic equations that are marked as depending on states or rates. No
procedure evaluates an equation twice, or before one that it depends on and that the procedure
evaluates too.
-/

namespace ComponentModel

namespace Code.Schedule

open Analysis (AnalysedEquation AnalysedModel EquationKind)
open Relation (ReflTransGen TransGen)

/-- A rate depends on the equation of a place, directly or through others. -/
def NeededByRate (equations : List AnalysedEquation) (place : Nat) : Prop :=
  ∃ root, IsKind equations .rate root ∧ TransGen (DependsOn equations fun _ => true) root place

/-- A schedule puts each equation exactly where its kind, what depends on it and its mark say. -/
structure IsExact (equations : List AnalysedEquation) (schedule : Schedule) : Prop where
  initialise : ∀ place, place ∈ schedule.initialise ↔ IsKind equations .trueConstant place
  computedConstants : ∀ place,
    place ∈ schedule.computedConstants ↔ IsKind equations .variableBasedConstant place
  rates : ∀ place, place ∈ schedule.rates ↔
    IsKind equations .rate place ∨
      IsKind equations .algebraic place ∧ NeededByRate equations place
  early_once : schedule.early.Nodup
  otherVariables : ∀ place, place ∈ schedule.otherVariables ↔
    ∃ equation, equations[place]? = some equation ∧
      (place ∉ schedule.early ∨ equation.kind = .algebraic ∧ equation.rateBased)
  otherVariables_once : schedule.otherVariables.Nodup
  /-- In each procedure, an equation stands behind what it depends on in the same procedure. -/
  ordered : ∀ places ∈ [schedule.initialise, schedule.computedConstants, schedule.rates,
      schedule.otherVariables],
    Complete (fun place needed =>
      DependsOn equations (fun _ => true) place needed ∧ needed ∈ places) places

/-- No equation is left out. -/
theorem IsExact.mem_early_or_otherVariables {equations : List AnalysedEquation}
    {schedule : Schedule} (exact_ : IsExact equations schedule) {place : Nat}
    (inside : place < equations.length) :
    place ∈ schedule.early ∨ place ∈ schedule.otherVariables := by
  by_cases early : place ∈ schedule.early
  · exact Or.inl early
  · exact Or.inr ((exact_.otherVariables place).mpr
      ⟨_, List.getElem?_eq_getElem inside, Or.inl early⟩)

/-! ## One procedure after the other -/

/-- What a list without repetition adds to its front. -/
theorem mem_drop_iff {front places : Places} (longer : front <+: places) (once : places.Nodup)
    {place : Nat} : place ∈ places.drop front.length ↔ place ∈ places ∧ place ∉ front := by
  obtain ⟨rest, rfl⟩ := longer
  have apart := List.disjoint_of_nodup_append once
  rw [List.drop_left, List.mem_append]
  constructor
  · exact fun inRest => ⟨Or.inr inRest, fun inFront => apart inFront inRest⟩
  · exact fun ⟨either, notFront⟩ => either.resolve_left notFront

section

variable {equations : List AnalysedEquation} {analysed : AnalysedModel} {rank : Nat → Nat}
  {place : Nat}

/-- Whatever a constant depends on, directly or through others, is constant. -/
theorem isConstant_of_reaches (ranked : Ranked equations rank) {root : Nat}
    (constant : IsConstant equations root)
    (reaches : ReflTransGen (DependsOn equations fun _ => true) root place) :
    IsConstant equations place := by
  induction reaches with
  | refl => exact constant
  | tail _ depends ih => exact ranked.constant _ _ depends ih

/-- No equation is evaluated twice, whatever kinds are evaluated one after the other. -/
theorem nodup_kinds (equations : List AnalysedEquation) (kinds : List EquationKind) :
    (kinds.foldr (evaluateKind equations) []).Nodup := by
  induction kinds with
  | nil => exact List.nodup_nil
  | cons kind _ ih => exact nodup_evaluateWhere _ (fun _ equation => equation.kind == kind) ih

/-- The first two procedures evaluate the constants, and nothing else. -/
theorem mem_constants_iff (ranked : Ranked equations rank) :
    place ∈ evaluateKind equations .variableBasedConstant
        (evaluateKind equations .trueConstant []) ↔ IsConstant equations place := by
  obtain ⟨first, hasTrue⟩ := evaluates_kind ranked .trueConstant .nil
  obtain ⟨second, hasBased⟩ := evaluates_kind ranked .variableBasedConstant first.complete
  constructor
  · intro membership
    rcases second.reached place membership with earlier | ⟨root, isBased, reaches⟩
    · obtain ⟨root, isTrue, reaches⟩ := (first.reached place earlier).resolve_left (by simp)
      exact isConstant_of_reaches ranked (Or.inl isTrue) reaches
    · exact isConstant_of_reaches ranked (Or.inr isBased) reaches
  · rintro (isTrue | isBased)
    · exact second.longer.subset (hasTrue place place isTrue .refl)
    · exact hasBased place place isBased .refl

theorem mem_computedConstants_iff (ranked : Ranked analysed.equations rank)
    (alone : ∀ place dependency, IsKind analysed.equations .trueConstant place →
      ¬DependsOn analysed.equations (fun _ => true) place dependency) :
    place ∈ (ofModel analysed).computedConstants ↔
      IsKind analysed.equations .variableBasedConstant place := by
  obtain ⟨first, -⟩ := evaluates_kind ranked .trueConstant .nil
  obtain ⟨second, -⟩ := evaluates_kind ranked .variableBasedConstant first.complete
  have once := nodup_kinds analysed.equations [.variableBasedConstant, .trueConstant]
  calc place ∈ (ofModel analysed).computedConstants
      ↔ _ ∧ _ := mem_drop_iff second.longer once
    _ ↔ IsConstant analysed.equations place ∧ ¬IsKind analysed.equations .trueConstant place :=
        and_congr (mem_constants_iff ranked) (not_congr (mem_initialise_iff ranked alone))
    _ ↔ IsKind analysed.equations .variableBasedConstant place := by
        constructor
        · exact fun ⟨constant, notTrue⟩ => constant.resolve_left notTrue
        · exact fun isBased => ⟨Or.inr isBased, fun isTrue => by cases isTrue.eq isBased⟩

/-- The third procedure evaluates rates, and the algebraic equations that they depend on. -/
theorem mem_rates_iff (ranked : Ranked analysed.equations rank) (timed : analysed.type = .ode) :
    place ∈ (ofModel analysed).rates ↔
      IsKind analysed.equations .rate place ∨
        IsKind analysed.equations .algebraic place ∧ NeededByRate analysed.equations place := by
  obtain ⟨first, -⟩ := evaluates_kind ranked .trueConstant .nil
  obtain ⟨second, -⟩ := evaluates_kind ranked .variableBasedConstant first.complete
  obtain ⟨third, done⟩ := evaluates_kind ranked .rate second.complete
  have added : place ∈ (ofModel analysed).rates ↔
      place ∈ evaluateKind analysed.equations .rate (evaluateKind analysed.equations
          .variableBasedConstant (evaluateKind analysed.equations .trueConstant [])) ∧
        ¬IsConstant analysed.equations place := by
    rw [← mem_constants_iff ranked, ← mem_drop_iff third.longer
      (nodup_kinds _ [.rate, .variableBasedConstant, .trueConstant])]
    simp only [ofModel, timed, beq_self_eq_true, if_true]
  rw [added]
  constructor
  · rintro ⟨evaluated, varies⟩
    obtain ⟨root, isRate, reaches⟩ := (third.reached place evaluated).resolve_left fun earlier =>
      varies ((mem_constants_iff ranked).mp earlier)
    rcases Relation.reflTransGen_iff_eq_or_transGen.mp reaches with rfl | below
    · exact Or.inl isRate
    · obtain ⟨_, -, depends⟩ := Relation.TransGen.tail'_iff.mp below
      obtain ⟨_, found⟩ := depends.exists_other
      exact ((ranked.isKind_cases found).resolve_left varies).imp_right fun isAlgebraic =>
        ⟨isAlgebraic, root, isRate, below⟩
  · rintro (isRate | ⟨isAlgebraic, root, isRate, below⟩)
    · exact ⟨done place place isRate .refl, isRate.not_isConstant (Or.inl rfl)⟩
    · exact ⟨done root place isRate below.to_reflTransGen,
        isAlgebraic.not_isConstant (Or.inr rfl)⟩

/-- No equation is evaluated twice before the other variables are computed. -/
theorem nodup_early (ranked : Ranked analysed.equations rank) : (ofModel analysed).early.Nodup := by
  rw [early_eq ranked]
  simp only
  split
  · exact nodup_kinds _ [.rate, .variableBasedConstant, .trueConstant]
  · exact nodup_kinds _ [.variableBasedConstant, .trueConstant]

/-- Each procedure evaluates its equations in the order of their dependencies. -/
theorem ordered_procedures (ranked : Ranked analysed.equations rank)
    (timed : analysed.type = .ode) :
    ∀ places ∈ [(ofModel analysed).initialise, (ofModel analysed).computedConstants,
        (ofModel analysed).rates, (ofModel analysed).otherVariables],
      Complete (fun place needed =>
        DependsOn analysed.equations (fun _ => true) place needed ∧ needed ∈ places) places := by
  obtain ⟨complete, -⟩ := early_spec ranked (Or.inl timed)
  have complete : Complete (DependsOn analysed.equations fun _ => true)
      (ofModel analysed).early := fun before place after equal needed depends =>
    complete before place after equal needed (Or.inl depends)
  have once := nodup_early ranked
  obtain ⟨others, accepted⟩ := evaluates_otherVariables ranked (Or.inl timed)
  unfold early at complete once
  intro places listed
  simp only [List.mem_cons, List.not_mem_nil, or_false] at listed
  rcases listed with rfl | rfl | rfl | rfl
  · rw [List.append_assoc] at complete once
    exact @Complete.part _ [] _ _ complete once
  · exact complete.part once
  · rw [← List.append_nil (_ ++ _ ++ _)] at complete once
    exact complete.part once
  · rintro before place after equal needed ⟨depends, isOther⟩
    exact others before place after equal needed ⟨depends, (accepted needed).mp isOther⟩

/-- The schedule of a timed model is exact, if true constants depend on nothing. -/
theorem isExact (ranked : Ranked analysed.equations rank) (timed : analysed.type = .ode)
    (alone : ∀ place dependency, IsKind analysed.equations .trueConstant place →
      ¬DependsOn analysed.equations (fun _ => true) place dependency) :
    IsExact analysed.equations (ofModel analysed) where
  initialise _ := mem_initialise_iff ranked alone
  computedConstants _ := mem_computedConstants_iff ranked alone
  rates _ := mem_rates_iff ranked timed
  early_once := nodup_early ranked
  otherVariables place := by
    obtain ⟨-, accepted⟩ := evaluates_otherVariables ranked (Or.inl timed)
    rw [accepted place]
    simp [Accepted, isOther_iff, isFresh]
  otherVariables_once := by
    rw [otherVariables_eq ranked]
    exact nodup_evaluateWhere _ _ List.nodup_nil
  ordered := ordered_procedures ranked timed

end

end Code.Schedule

/-! ## Models that can be solved -/

namespace Analysis.Stage

open Code (IsKind Profile Schedule)
open Code.Program (equations literals text)
open Equation (Expr)

/-- The last sections of the code of a timed model are its four procedures, each with the equations
that the schedule has for it, and the schedule puts every equation exactly where it belongs: each is
evaluated by one of the first three procedures, by the last one, or by both. -/
theorem procedures_exact (model : Model) (timed : (analyse model).type = .ode) :
    let analysed := analyse model
    let schedule := Schedule.ofModel analysed
    (∀ profile : Profile, ∃ front, profile.implementationSections analysed = front ++
      [profile.procedure .implementationInitializeStatesAndConstantsMethod
        (text analysed profile (literals analysed ++ Code.Program.copies analysed ++
          equations analysed schedule.initialise)),
       profile.procedure .implementationComputeComputedConstantsMethod
        (text analysed profile (equations analysed schedule.computedConstants)),
       profile.procedure .implementationComputeRatesMethod
        (text analysed profile (equations analysed schedule.rates)),
       profile.procedure .implementationComputeVariablesMethod
        (text analysed profile (equations analysed schedule.otherVariables))]) ∧
    schedule.IsExact analysed.equations ∧
    (∀ equation ∈ analysed.equations, equation.kind ≠ .unknown) ∧
    ∀ place < analysed.equations.length,
      place ∈ schedule.early ∨ place ∈ schedule.otherVariables := by
  intro analysed schedule
  have valid : analysed.type.isValid := by rw [timed]; rfl
  have isExact : schedule.IsExact analysed.equations :=
    Schedule.isExact (ranked valid) timed fun _ dependency =>
      not_dependsOn_of_trueConstant valid dependency
  refine ⟨fun profile => ?_, isExact, (ranked valid).kinds,
    fun place => isExact.mem_early_or_otherVariables⟩
  obtain ⟨front, equal⟩ := Code.Program.sections_eq analysed profile
  refine ⟨front, equal.trans ?_⟩
  simp [Code.Program.procedures, timed, analysed, schedule]

/-- The rate of `x` is reported first, and depends on `y`. -/
theorem equations_growth : (analyse growth).equations =
    [⟨.rate, (Expr.apply .assignment (.apply .diff (.apply .bvar (.reference 0) .absent)
        (.reference 1)) (.reference 2)).scaledInPlace (rule growth), [1], true,
      ⟨⟨"c", "x", "dimensionless", some (.number 1)⟩, ⟨"c", "x", "dimensionless", some (.number 1)⟩,
        .state, 0⟩⟩,
     ⟨.algebraic, (Expr.apply .assignment (.reference 2) (.reference 1)).scaledInPlace
        (rule growth), [], true,
      ⟨⟨"c", "y", "dimensionless", none⟩, ⟨"c", "y", "dimensionless", none⟩, .algebraic, 0⟩⟩] := by
  have equations : (final growth).equations =
      [⟨.apply .assignment (.reference 2) (.reference 1), 0, [0], [], some 0, .algebraic, [],
        false, false, true, some 0⟩,
       ⟨.apply .assignment (.apply .diff (.apply .bvar (.reference 0) .absent) (.reference 1))
          (.reference 2), 0, [], [1], some 1, .rate, [0], false, false, true, some 1⟩] := by
    rw [final, start, derivatives_growth, gathered_growth]
    cbv
  have entries : (layout growth).byRecord =
    [(0, ⟨⟨"c", "y", "dimensionless", none⟩, ⟨"c", "y", "dimensionless", none⟩, .algebraic, 0⟩),
     (1, ⟨⟨"c", "x", "dimensionless", some (.number 1)⟩,
      ⟨"c", "x", "dimensionless", some (.number 1)⟩, .state, 0⟩),
     (2, ⟨⟨"c", "t", "second", none⟩, ⟨"c", "t", "second", none⟩, .integrationVariable, 0⟩)] := by
    rw [layout, registry_growth]
    cbv
  rw [equations_eq valid_growth, reported_growth, equations]
  generalize layout growth = laidOut at entries ⊢
  obtain ⟨_, _, _, byRecord⟩ := laidOut
  obtain rfl : byRecord = _ := entries
  rfl

/-- In a model whose rate is a variable of its own, the equation of that variable is evaluated with
the rates and again with the other variables, as it is marked as depending on a state. -/
theorem growth_repeats_rate :
    (analyse growth).type = .ode ∧ 1 ∈ (Schedule.ofModel (analyse growth)).rates ∧
      1 ∈ (Schedule.ofModel (analyse growth)).otherVariables := by
  obtain ⟨-, isExact, -⟩ := procedures_exact growth type_growth
  have isRate : IsKind (analyse growth).equations .rate 0 := ⟨_, by rw [equations_growth]; rfl, rfl⟩
  have isAlgebraic : IsKind (analyse growth).equations .algebraic 1 :=
    ⟨_, by rw [equations_growth]; rfl, rfl⟩
  have depends : Code.DependsOn (analyse growth).equations (fun _ => true) 0 1 :=
    ⟨_, _, by rw [equations_growth]; rfl, by simp, by rw [equations_growth]; rfl, rfl⟩
  refine ⟨type_growth, (isExact.rates 1).mpr (.inr ⟨isAlgebraic, 0, isRate, .single depends⟩), ?_⟩
  exact (isExact.otherVariables 1).mpr ⟨_, by rw [equations_growth]; rfl, .inr ⟨rfl, rfl⟩⟩

end Analysis.Stage

end ComponentModel
