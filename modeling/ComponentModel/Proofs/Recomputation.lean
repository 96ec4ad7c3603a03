import ComponentModel.Proofs.Computation
import ComponentModel.Proofs.Elimination.Flags
import ComponentModel.Proofs.Execution
import ComponentModel.Proofs.Procedures

/-!
# What the last procedure computes again

The procedure for the other variables may be called on its own, with another value of the variable
of integration, other states and other rates than before. It evaluates the algebraic equations that
no rate depends on, and those that are marked as depending on states or rates. Each of these holds
afterwards. An algebraic equation that a rate depends on, and that depends on the variable of
integration only, is not among them: its variable keeps what was computed together with the rates.
-/

namespace ComponentModel

namespace Code

open Analysis (AnalysedEquation AnalysedModel EquationKind)
open Equation (Arithmetic Expr)
open Schedule (NeededByRate)

/-- An algebraic equation is evaluated for the other variables: no rate depends on it, or it is
marked as depending on states or rates. -/
def IsRecomputed (equations : List AnalysedEquation) (place : Nat) : Prop :=
  ∃ equation, equations[place]? = some equation ∧ equation.kind = .algebraic ∧
    (equation.rateBased ∨ ¬NeededByRate equations place)

namespace Schedule.IsExact

variable {equations : List AnalysedEquation} {schedule : Schedule} {rank : Nat → Nat} {place : Nat}

theorem mem_early_iff (isExact : schedule.IsExact equations) :
    place ∈ schedule.early ↔ IsConstant equations place ∨ IsKind equations .rate place ∨
      IsKind equations .algebraic place ∧ NeededByRate equations place := by
  simp only [early, List.mem_append, isExact.initialise, isExact.computedConstants, isExact.rates,
    IsConstant]

/-- The procedure for the other variables evaluates exactly what is recomputed. -/
theorem mem_otherVariables_iff (isExact : schedule.IsExact equations)
    (ranked : Ranked equations rank) :
    place ∈ schedule.otherVariables ↔ IsRecomputed equations place := by
  rw [isExact.otherVariables, isExact.mem_early_iff]
  constructor
  · rintro ⟨equation, found, late | ⟨isAlgebraic, based⟩⟩
    · rcases ranked.isKind_cases found with constant | isRate | isAlgebraic
      · exact absurd (Or.inl constant) late
      · exact absurd (Or.inr (Or.inl isRate)) late
      · obtain ⟨other, found', kind⟩ := id isAlgebraic
        exact ⟨other, found', kind, Or.inr fun needed =>
          late (Or.inr (Or.inr ⟨isAlgebraic, needed⟩))⟩
    · exact ⟨equation, found, isAlgebraic, Or.inl based⟩
  · rintro ⟨equation, found, kind, based | unneeded⟩
    · exact ⟨equation, found, Or.inr ⟨kind, based⟩⟩
    · have isAlgebraic : IsKind equations .algebraic place := ⟨equation, found, kind⟩
      refine ⟨equation, found, Or.inl ?_⟩
      rintro (constant | isRate | ⟨-, needed⟩)
      · exact isAlgebraic.not_isConstant (Or.inr rfl) constant
      · cases isAlgebraic.eq isRate
      · exact unneeded needed

end Schedule.IsExact

/-- An element of an array that an algebraic equation computes. -/
def IsAlgebraicSlot (analysed : AnalysedModel) (slot : Slot) : Prop :=
  ∃ result ∈ analysed.equations, result.kind = .algebraic ∧ result.slot? = some slot

/-- What a call of the procedure for the other variables makes of the arrays. -/
structure Recomputes {K : Type*} (arithmetic : Arithmetic K) (analysed : AnalysedModel)
    (memory after : Memory K) : Prop where
  integration : after.integration = memory.integration
  /-- States, rates and constants are not touched. -/
  kept : ∀ slot, ¬IsAlgebraicSlot analysed slot → after.element slot = memory.element slot
  /-- An equation that is evaluated holds. -/
  fresh : ∀ place result declaration right, analysed.equations[place]? = some result →
    analysed.IsExplicit result declaration right → IsRecomputed analysed.equations place →
      after.element (.other result.computes.place) = after.value arithmetic analysed right
  /-- An equation that is not evaluated holds exactly if it held before: neither side changes. -/
  stale : ∀ place result declaration right, analysed.equations[place]? = some result →
    result.kind = .algebraic → analysed.IsExplicit result declaration right →
      ¬IsRecomputed analysed.equations place →
        after.element (.other result.computes.place) =
            memory.element (.other result.computes.place) ∧
          after.value arithmetic analysed right = memory.value arithmetic analysed right

end Code

namespace Analysis.Stage

open Code (DependsOn IsAlgebraicSlot IsKind IsRecomputed Memory Profile Recomputes Schedule Slot
  Statement)
open Code.Program (KeepsClear)
open Code.Schedule (NeededByRate)
open Equation (Arithmetic Expr)
open Relation (ReflTransGen)

variable {model : Model} {place other : Nat} {result : AnalysedEquation} {slot : Slot}

/-! ## Slots of algebraic equations -/

theorem slot?_of_algebraic (valid : (analyse model).type.isValid)
    (reported : (analyse model).equations[place]? = some result)
    (isAlgebraic : result.kind = .algebraic) :
    result.slot? = some (.other result.computes.place) := by
  have type := computedType?_eq valid reported
  rw [isAlgebraic] at type
  rw [AnalysedEquation.slot?, ← Option.some.inj type]
  rfl

/-- Different equations compute different elements. -/
theorem place_eq_of_slot (valid : (analyse model).type.isValid) {resultOther : AnalysedEquation}
    (reported : (analyse model).equations[place]? = some result)
    (reportedOther : (analyse model).equations[other]? = some resultOther)
    (kept : result.slot? = some slot) (keptOther : resultOther.slot? = some slot) : place = other :=
  place_eq_of_cell valid reported reportedOther (cell_eq_of_slot kept keptOther)

/-- What an algebraic equation computes is not initialised. -/
theorem slot_ne_of_initialised (valid : (analyse model).type.isValid) {found : AnalysedVariable}
    (reported : (analyse model).equations[place]? = some result)
    (isAlgebraic : result.kind = .algebraic)
    (membership : found ∈ Profile.initialised (analyse model))
    (kept : Slot.of? false found.type found.place = some slot) : result.slot? ≠ some slot := by
  intro same
  obtain ⟨given, record, -, entry⟩ := exists_entry_of_initialised valid membership
  obtain ⟨_, _, _, _, _, reportedAt⟩ := exists_reportedAt valid reported
  have computed := computedType?_eq valid reported
  rw [isAlgebraic] at computed
  obtain rfl := (cell_eq_iff entry reportedAt.entry).mp (cell_eq_of_slot kept same)
  obtain rfl := Option.some.inj (entry.symm.trans reportedAt.entry)
  rw [← Option.some.inj computed] at given
  simp at given

/-- An explicit equation that reads what an algebraic equation computes depends on that
equation. -/
theorem dependsOn_of_read (valid : (analyse model).type.isValid) {declaration : Nat} {right : Expr}
    (reported : (analyse model).equations[place]? = some result)
    (explicit : (analyse model).IsExplicit result declaration right)
    {resultOther : AnalysedEquation}
    (reportedOther : (analyse model).equations[other]? = some resultOther)
    (isAlgebraic : resultOther.kind = .algebraic) (kept : resultOther.slot? = some slot)
    (read : slot ∈ Statement.reads (analyse model) (.equation result)) :
    DependsOn (analyse model).equations (fun _ => true) place other := by
  obtain ⟨_, _, _, _, _, reportedAt⟩ := exists_reportedAt valid reported
  rcases reportedAt.provided valid explicit read with
    ⟨found, membership, initial⟩ | ⟨needed, computing, needs, foundNeeded, computed⟩
  · exact absurd kept (slot_ne_of_initialised valid reportedOther isAlgebraic membership initial)
  · obtain rfl := place_eq_of_slot valid foundNeeded reportedOther computed kept
    rcases needs with depends | ⟨-, isRate, -⟩
    · exact depends
    · cases isRate.eq ⟨resultOther, reportedOther, isAlgebraic⟩

/-! ## Marks -/

/-- What depends on an equation that depends on states or rates is marked, too. -/
theorem rateBased_of_dependsOn (valid : (analyse model).type.isValid)
    {resultOther : AnalysedEquation}
    (reported : (analyse model).equations[place]? = some result)
    (reportedOther : (analyse model).equations[other]? = some resultOther)
    (depends : DependsOn (analyse model).equations (fun _ => true) place other)
    (based : resultOther.rateBased) : result.rateBased := by
  obtain ⟨_, _, _, _, _, _, number, _, _, _, item', _, reportedAt, reportedAt', -, record, asked,
    gone, named⟩ := exists_dependency_reportedAt valid depends
  obtain rfl := Option.some.inj (reported.symm.trans reportedAt.found)
  obtain rfl := Option.some.inj (reportedOther.symm.trans reportedAt'.found)
  rw [reportedAt'.rateBased valid] at based
  rw [reportedAt.rateBased valid]
  rcases Elimination.rateBased_of_gone (ready model) (moves model)
    (start_getElem?.mpr reportedAt.ordered.foundSource) reportedAt.ordered.found asked gone with
    flag | ⟨computing, named', -, unbased⟩ | given
  · exact flag
  · obtain rfl := Option.some.inj (named.symm.trans named')
    simp [Elimination.rateBased, reportedAt'.ordered.found, based] at unbased
  -- A class that an equation computes is neither a constant nor the variable of integration.
  · have open_ := reportedAt'.ordered.open_
    obtain rfl := reportedAt'.number_eq named
    cases item' with
    | value _ => rcases given with given | given <;> cases given.symm.trans open_
    | rate _ => rcases given with given | given <;> cases given.symm.trans open_

/-! ## Calls -/

variable {K : Type*} (arithmetic : Arithmetic K)

/-- The statements of the procedure for the other variables. -/
def recomputation (model : Model) : List Statement :=
  Code.Program.equations (analyse model) (Schedule.ofModel (analyse model)).otherVariables

theorem mem_recomputation_iff {statement : Statement} :
    statement ∈ recomputation model ↔ ∃ place result,
      place ∈ (Schedule.ofModel (analyse model)).otherVariables ∧
        (analyse model).equations[place]? = some result ∧ statement = .equation result := by
  simp only [recomputation, Code.Program.equations, List.mem_filterMap, Option.map_eq_some_iff]
  grind

section Timed

variable (timed : (analyse model).type = .ode)
  (explicit : ∀ result ∈ (analyse model).equations, ∃ declaration right,
    (analyse model).IsExplicit result declaration right)

include timed

theorem schedule_isExact :
    (Schedule.ofModel (analyse model)).IsExact (analyse model).equations :=
  Schedule.isExact (ranked (valid_of_ode timed)) timed fun _ dependency =>
    not_dependsOn_of_trueConstant (valid_of_ode timed) dependency

theorem mem_otherVariables_iff :
    place ∈ (Schedule.ofModel (analyse model)).otherVariables ↔
      IsRecomputed (analyse model).equations place :=
  (schedule_isExact timed).mem_otherVariables_iff (ranked (valid_of_ode timed))

/-- What is evaluated for the other variables assigns to what algebraic equations compute. -/
theorem target?_of_recomputed (recomputed : IsRecomputed (analyse model).equations place)
    (reported : (analyse model).equations[place]? = some result) {declaration : Nat} {right : Expr}
    (isExplicit : (analyse model).IsExplicit result declaration right) :
    result.kind = .algebraic ∧ Statement.target? (analyse model) (.equation result) =
      some (.other result.computes.place) := by
  obtain ⟨_, found, isAlgebraic, -⟩ := recomputed
  obtain rfl := Option.some.inj (reported.symm.trans found)
  exact ⟨isAlgebraic, isExplicit.target?_eq.trans
    (slot?_of_algebraic (valid_of_ode timed) reported isAlgebraic)⟩

/-- What a rate depends on, and what is not marked, reads nothing that the call changes: an
evaluated equation that it depends on is needed by the same rate, so it would have to be marked. -/
theorem not_recomputed_of_read (reported : (analyse model).equations[place]? = some result)
    {declaration : Nat} {right : Expr}
    (isExplicit : (analyse model).IsExplicit result declaration right)
    (isAlgebraic : result.kind = .algebraic)
    (stale : ¬IsRecomputed (analyse model).equations place) {resultOther : AnalysedEquation}
    (reportedOther : (analyse model).equations[other]? = some resultOther)
    (recomputed : IsRecomputed (analyse model).equations other)
    (kept : resultOther.slot? = some slot) :
    slot ∉ Statement.reads (analyse model) (.equation result) := by
  intro read
  have valid := valid_of_ode timed
  obtain ⟨_, found, isAlgebraicOther, evaluated⟩ := recomputed
  obtain rfl := Option.some.inj (reportedOther.symm.trans found)
  have depends :=
    dependsOn_of_read valid reported isExplicit reportedOther isAlgebraicOther kept read
  have needed : NeededByRate (analyse model).equations place := by
    by_contra unneeded
    exact stale ⟨result, reported, isAlgebraic, Or.inr unneeded⟩
  obtain ⟨root, isRate, below⟩ := needed
  rcases evaluated with based | unneeded
  · exact stale ⟨result, reported, isAlgebraic,
      Or.inl (rateBased_of_dependsOn valid reported reportedOther depends based)⟩
  · exact unneeded ⟨root, isRate, below.tail depends⟩

include explicit

/-- No later statement of the procedure changes what an earlier one has read or stored. -/
theorem pairwise_recomputation :
    (recomputation model).Pairwise (KeepsClear (analyse model)) := by
  have valid := valid_of_ode timed
  have isExact := schedule_isExact timed
  rw [recomputation, Code.Program.equations, List.pairwise_filterMap]
  have ordered := (isExact.ordered _ (by simp)).pairwise isExact.otherVariables_once
  refine ordered.imp_of_mem ?_
  intro earlier later _ isLater apart _ first _ second slot touches
  obtain ⟨different, independent⟩ := apart
  obtain ⟨result, reported, rfl⟩ := Option.map_eq_some_iff.mp first
  obtain ⟨resultLater, reportedLater, rfl⟩ := Option.map_eq_some_iff.mp second
  obtain ⟨_, _, isExplicit⟩ := explicit result (List.mem_of_getElem? reported)
  obtain ⟨_, _, laterExplicit⟩ := explicit resultLater (List.mem_of_getElem? reportedLater)
  have recomputed := (mem_otherVariables_iff timed).mp isLater
  obtain ⟨isAlgebraic, -⟩ := target?_of_recomputed timed recomputed reportedLater laterExplicit
  rw [laterExplicit.target?_eq] at touches
  constructor
  · exact fun read => independent
      (dependsOn_of_read valid reported isExplicit reportedLater isAlgebraic touches read)
  · rw [isExplicit.target?_eq]
    exact fun same => different (place_eq_of_slot valid reported reportedLater same touches)

/-- An equation that is evaluated for the other variables holds after the call. -/
theorem recomputed_holds (memory : Memory K)
    (reported : (analyse model).equations[place]? = some result) {declaration : Nat} {right : Expr}
    (isExplicit : (analyse model).IsExplicit result declaration right)
    (recomputed : IsRecomputed (analyse model).equations place) :
    (Code.Program.run arithmetic (analyse model) (recomputation model) memory).element
        (.other result.computes.place) =
      (Code.Program.run arithmetic (analyse model) (recomputation model) memory).value arithmetic
        (analyse model) right := by
  have valid := valid_of_ode timed
  have own : ∀ statement ∈ recomputation model, ∀ slot,
      statement.target? (analyse model) = some slot → slot ∉ statement.reads (analyse model) := by
    intro statement membership slot assigns read
    obtain ⟨place, result, listed, reported, rfl⟩ := mem_recomputation_iff.mp membership
    obtain ⟨_, _, isExplicit⟩ := explicit result (List.mem_of_getElem? reported)
    have recomputed := (mem_otherVariables_iff timed).mp listed
    obtain ⟨isAlgebraic, -⟩ := target?_of_recomputed timed recomputed reported isExplicit
    rw [isExplicit.target?_eq] at assigns
    -- An equation that reads its own target would depend on itself.
    have depends := dependsOn_of_read valid reported isExplicit reported isAlgebraic assigns read
    exact Nat.lt_irrefl _ ((ranked valid).lower place place depends)
  have membership : .equation result ∈ recomputation model := mem_recomputation_iff.mpr
    ⟨place, result, (mem_otherVariables_iff timed).mpr recomputed, reported, rfl⟩
  obtain ⟨-, assigns⟩ := target?_of_recomputed timed recomputed reported isExplicit
  rw [Code.Program.element_run arithmetic (pairwise_recomputation timed explicit) own membership
    assigns memory, Statement.value, isExplicit.assigns]
  rfl

/-- Only what the evaluated equations compute changes. -/
theorem element_of_not_recomputed (memory : Memory K)
    (untouched : ∀ place result, IsRecomputed (analyse model).equations place →
      (analyse model).equations[place]? = some result → result.slot? ≠ some slot) :
    (Code.Program.run arithmetic (analyse model) (recomputation model) memory).element slot =
      memory.element slot := by
  refine Code.Program.element_run_of_untouched arithmetic (fun statement membership => ?_) memory
  obtain ⟨place, result, listed, reported, rfl⟩ := mem_recomputation_iff.mp membership
  obtain ⟨_, _, isExplicit⟩ := explicit result (List.mem_of_getElem? reported)
  rw [isExplicit.target?_eq]
  exact untouched place result ((mem_otherVariables_iff timed).mp listed) reported

/-- A call leaves the evaluated equations true, and the others as true as they were. -/
theorem recomputes (memory : Memory K) :
    Recomputes arithmetic (analyse model) memory
      (Code.Program.run arithmetic (analyse model) (recomputation model) memory) where
  integration := Code.Program.integration_run arithmetic memory
  kept := by
    intro slot apart
    refine element_of_not_recomputed arithmetic timed explicit memory ?_
    rintro place result ⟨_, found, isAlgebraic, -⟩ reported
    obtain rfl := Option.some.inj (reported.symm.trans found)
    exact fun same => apart ⟨result, List.mem_of_getElem? reported, isAlgebraic, same⟩
  fresh := fun place result declaration right reported isExplicit recomputed =>
    recomputed_holds arithmetic timed explicit memory reported isExplicit recomputed
  stale := by
    intro place result declaration right reported isAlgebraic isExplicit stale
    have valid := valid_of_ode timed
    constructor
    · refine element_of_not_recomputed arithmetic timed explicit memory fun other resultOther
        recomputed reportedOther same => stale ?_
      rwa [place_eq_of_slot valid reported reportedOther
        (slot?_of_algebraic valid reported isAlgebraic) same]
    · refine Memory.value_congr arithmetic (Code.Program.integration_run arithmetic memory)
        fun slot read => ?_
      rw [← isExplicit.reads_eq] at read
      exact element_of_not_recomputed arithmetic timed explicit memory fun other resultOther
        recomputed reportedOther kept => not_recomputed_of_read timed reported isExplicit
          isAlgebraic stale reportedOther recomputed kept read

/-- Where all algebraic equations that an equation depends on are evaluated, the call computes its
variable from the variable of integration, states, rates and constants alone. -/
theorem element_eq_of_recomputed {one two : Memory K}
    (integration : one.integration = two.integration)
    (same : ∀ slot, ¬IsAlgebraicSlot (analyse model) slot → one.element slot = two.element slot)
    (reported : (analyse model).equations[place]? = some result)
    (isAlgebraic : result.kind = .algebraic)
    (all : ∀ needed, ReflTransGen (DependsOn (analyse model).equations fun _ => true) place needed →
      IsKind (analyse model).equations .algebraic needed →
        IsRecomputed (analyse model).equations needed) :
    (Code.Program.run arithmetic (analyse model) (recomputation model) one).element
        (.other result.computes.place) =
      (Code.Program.run arithmetic (analyse model) (recomputation model) two).element
        (.other result.computes.place) := by
  have valid := valid_of_ode timed
  -- Dependencies lead to lower ranks.
  induction rank : rankAt model place using Nat.strong_induction_on generalizing place result with
  | h rank ih =>
  subst rank
  obtain ⟨declaration, right, isExplicit⟩ := explicit result (List.mem_of_getElem? reported)
  have recomputed := all place .refl ⟨result, reported, isAlgebraic⟩
  rw [recomputed_holds arithmetic timed explicit one reported isExplicit recomputed,
    recomputed_holds arithmetic timed explicit two reported isExplicit recomputed]
  refine Memory.value_congr arithmetic (by simpa using integration) fun slot read => ?_
  rw [← isExplicit.reads_eq] at read
  by_cases computed : IsAlgebraicSlot (analyse model) slot
  · obtain ⟨resultNeeded, membership, isAlgebraicNeeded, kept⟩ := computed
    obtain ⟨needed, reportedNeeded⟩ := List.mem_iff_getElem?.mp membership
    have depends :=
      dependsOn_of_read valid reported isExplicit reportedNeeded isAlgebraicNeeded kept read
    obtain rfl : .other resultNeeded.computes.place = slot := Option.some.inj
      ((slot?_of_algebraic valid reportedNeeded isAlgebraicNeeded).symm.trans kept)
    exact ih _ ((ranked valid).lower place needed depends) reportedNeeded isAlgebraicNeeded
      (fun further reaches => all further (reaches.head depends)) rfl
  · rw [(recomputes arithmetic timed explicit one).kept slot computed,
      (recomputes arithmetic timed explicit two).kept slot computed]
    exact same slot computed

end Timed

/-- Every algebraic variable is computed by an algebraic equation. -/
theorem exists_computing_algebraic (valid : (analyse model).type.isValid) {found : AnalysedVariable}
    (membership : found ∈ (analyse model).otherVariables) (isAlgebraic : found.type = .algebraic) :
    ∃ result ∈ (analyse model).equations, result.kind = .algebraic ∧ result.computes = found := by
  obtain ⟨place, kept⟩ := List.mem_iff_getElem?.mp membership
  change (analyse model).occupant? (.other place) = some found at kept
  obtain ⟨-, record, -, entry⟩ := exists_entry_of_occupant valid kept
  obtain ⟨place, result, reported, rfl⟩ :=
    (computesAt_iff valid entry).mpr (isSome_equation_of_type entry (Or.inr isAlgebraic))
  have computed := computedType?_eq valid reported
  rw [isAlgebraic] at computed
  refine ⟨result, List.mem_of_getElem? reported, ?_, rfl⟩
  cases kind : result.kind <;> rw [kind] at computed <;> first | rfl | cases computed

/-- A rate that is a variable of its own, which is set to the time: `a = t`, and `a` is the
derivative of `x`. -/
def forced : Model :=
  single "forced"
    [⟨"t", "second", none, none⟩, ⟨"x", "dimensionless", some (.number 1), none⟩,
      ⟨"a", "second", none, none⟩]
    ("<math><apply><eq/><ci>a</ci><ci>t</ci></apply>" ++
      "<apply><eq/><apply><diff/><bvar><ci>t</ci></bvar><ci>x</ci></apply>" ++
      "<ci>a</ci></apply></math>")

theorem gathered_forced : Gathered.ofIndex (index forced) =
    ⟨[⟨2, 2, 2, .unknown, none, none⟩, ⟨0, 0, 0, .unknown, none, none⟩,
      ⟨1, 1, 1, .constant, none, none⟩],
      [.new (.apply .assignment (.reference 2) (.reference 0)) 0 [0, 1] [],
       .new (.apply .assignment (.apply .diff (.apply .bvar (.reference 0) .absent) (.reference 1))
        (.reference 2)) 0 [0] [2]], []⟩ := by
  cbv

theorem derivatives_forced : derivatives forced =
    ⟨⟨[⟨2, 2, 2, .unknown, none, none⟩, ⟨0, 0, 0, .integrationVariable, none, none⟩,
      ⟨1, 1, 1, .state, none, none⟩],
      (Gathered.ofIndex (index forced)).equations, []⟩, some 0⟩ := by
  rw [derivatives, gathered_forced]
  cbv

/-- The first equation is not marked, as it depends on the variable of integration only. -/
theorem final_forced : final forced =
    ⟨[⟨.apply .assignment (.reference 2) (.reference 0), 0, [0], [], some 0, .algebraic, [],
        false, false, false, some 0⟩,
      ⟨.apply .assignment (.apply .diff (.apply .bvar (.reference 0) .absent) (.reference 1))
        (.reference 2), 0, [], [2], some 1, .rate, [0], false, false, true, some 2⟩],
      [⟨2, 2, 2, .algebraic, some 0, some 0⟩, ⟨0, 0, 0, .integrationVariable, none, none⟩,
        ⟨1, 1, 1, .state, some 0, some 1⟩], ⟨1, 1, 2⟩⟩ := by
  rw [final, start, derivatives_forced, gathered_forced]
  cbv

theorem type_forced : (analyse forced).type = .ode := by
  have gathered : (Gathered.ofIndex (index forced)).issues = [] := by rw [gathered_forced]
  have derived : (derivatives forced).gathered.issues = [] := by rw [derivatives_forced]
  rw [type_analyse gathered derived, final_forced, derivatives_forced]
  rfl

theorem equations_forced : (analyse forced).equations =
    [⟨.rate, .apply .assignment (.apply .diff (.apply .bvar (.reference 0) .absent) (.reference 1))
        (.reference 2), [1], true,
      ⟨⟨"c", "x", "dimensionless", some (.number 1)⟩, ⟨"c", "x", "dimensionless", some (.number 1)⟩,
        .state, 0⟩⟩,
     ⟨.algebraic, .apply .assignment (.reference 2) (.reference 0), [], false,
      ⟨⟨"c", "a", "second", none⟩, ⟨"c", "a", "second", none⟩, .algebraic, 0⟩⟩] := by
  have listed : reported forced = [1, 0] := by
    rw [reported, final_forced]
    cbv
  have entries : (layout forced).byRecord =
      [(0, ⟨⟨"c", "a", "second", none⟩, ⟨"c", "a", "second", none⟩, .algebraic, 0⟩),
       (2, ⟨⟨"c", "x", "dimensionless", some (.number 1)⟩,
        ⟨"c", "x", "dimensionless", some (.number 1)⟩, .state, 0⟩),
       (1, ⟨⟨"c", "t", "second", none⟩, ⟨"c", "t", "second", none⟩,
        .integrationVariable, 0⟩)] := by
    rw [layout, final_forced]
    cbv
  -- All declarations are those that are reported for their classes, so none has a factor.
  have unscaled : ∀ declaration record : Nat,
      (final forced).registry.find? (index forced) declaration = some record →
      ((final forced).registry.get record).declaration = declaration →
      rule forced declaration = none := by
    intro _ _ recorded same
    exact rule_eq_none recorded (by rw [same])
  have time : rule forced 0 = none :=
    unscaled 0 1 (by rw [final_forced]; cbv) (by rw [final_forced]; rfl)
  have state : rule forced 1 = none :=
    unscaled 1 2 (by rw [final_forced]; cbv) (by rw [final_forced]; rfl)
  have rate : rule forced 2 = none :=
    unscaled 2 0 (by rw [final_forced]; cbv) (by rw [final_forced]; rfl)
  calc (analyse forced).equations
      = [⟨.rate, (Expr.apply .assignment (.apply .diff (.apply .bvar (.reference 0) .absent)
            (.reference 1)) (.reference 2)).scaledInPlace (rule forced), [1], true,
          ⟨⟨"c", "x", "dimensionless", some (.number 1)⟩,
            ⟨"c", "x", "dimensionless", some (.number 1)⟩, .state, 0⟩⟩,
         ⟨.algebraic, (Expr.apply .assignment (.reference 2) (.reference 0)).scaledInPlace
            (rule forced), [], false,
          ⟨⟨"c", "a", "second", none⟩, ⟨"c", "a", "second", none⟩, .algebraic, 0⟩⟩] := by
        rw [equations_eq (valid_of_ode type_forced), listed, final_forced]
        generalize layout forced = laidOut at entries ⊢
        obtain ⟨_, _, _, byRecord⟩ := laidOut
        obtain rfl : byRecord = _ := entries
        rfl
    _ = _ := by
        rw [Equation.Expr.scaledInPlace_eq, Equation.Expr.scaledInPlace_eq,
          Expr.rescale_eq_self .plain (by simp [Expr.mentions, time, state, rate]),
          Expr.rescale_eq_self .plain (by simp [Expr.mentions, time, rate])]

theorem bindings_forced : (analyse forced).bindings =
    [some (.integrationVariable, 0), some (.state, 0), some (.algebraic, 0)] := by
  obtain ⟨-, -, issues, equal⟩ := analyse_eq (valid_of_ode type_forced)
  have laidOut : (List.range 3).map ((layout forced).binding? (index forced)
      (final forced).registry) =
        [some (.integrationVariable, 0), some (.state, 0), some (.algebraic, 0)] := by
    rw [layout, final_forced]
    cbv
  rw [equal]
  exact laidOut

theorem binding?_forced (declaration : Nat) : (analyse forced).binding? declaration =
    ([some (.integrationVariable, 0), some (.state, 0),
      some (.algebraic, 0)][declaration]?).join := by
  rw [AnalysedModel.binding?, bindings_forced]

theorem isExplicit_forced : ∀ result ∈ (analyse forced).equations, ∃ declaration right,
    (analyse forced).IsExplicit result declaration right ∧
      (result.kind = .algebraic → right = .reference 0) := by
  intro result membership
  rw [equations_forced] at membership
  rcases List.mem_pair.mp membership with rfl | rfl
  · refine ⟨1, .reference 2, ⟨rfl, binding?_forced 1, ?_⟩, by simp⟩
    intro other mentioned
    cases List.mem_singleton.mp mentioned
  · refine ⟨2, .reference 0, ⟨rfl, binding?_forced 2, ?_⟩, fun _ => rfl⟩
    intro other mentioned
    obtain rfl : other = 0 := congrArg Prod.snd (List.mem_singleton.mp mentioned)
    rw [AnalysedModel.Binds, binding?_forced]
    simp

end Analysis.Stage

end ComponentModel
