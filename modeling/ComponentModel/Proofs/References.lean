import ComponentModel.Proofs.Dataflow
import ComponentModel.Proofs.Elimination.Flags
import Mathlib

/-!
# What equations refer to

A reported equation refers to the values and to the rates of classes; what a derivative is by is no
reference. Its references ask for the items that it had when it was read. An equation is reported as
dependent on states and rates exactly if it refers to one, or to what another such equation
computes, whatever the order was in which the equations were found.
-/

namespace ComponentModel.Analysis

open Equation (Role)
open Relation (ReflTransGen)

/-- The references of an equation in their roles. What bounds a derivative is none. -/
def AnalysedEquation.references (equation : AnalysedEquation) : List (Role × Nat) :=
  (equation.expr.mentions .plain).filter fun mention => mention.1 != .bound

namespace AnalysedModel

/-- An equation refers to a rate, or to the value of a state. -/
def RefersToState (analysed : AnalysedModel) (equation : AnalysedEquation) : Prop :=
  (∃ declaration, (.differentiated, declaration) ∈ equation.references) ∨
    ∃ declaration place, (.plain, declaration) ∈ equation.references ∧
      analysed.binding? declaration = some (.state, place)

/-- An equation refers to the value of another class than its own, and an equation computes it. -/
def Uses (analysed : AnalysedModel) (equation other : AnalysedEquation) : Prop :=
  other ∈ analysed.equations ∧ ∃ declaration, (.plain, declaration) ∈ equation.references ∧
    ¬analysed.Binds equation.computes declaration ∧ analysed.Binds other.computes declaration

end AnalysedModel

namespace Stage

variable {model : Model} {place number order : Nat} {source equation : OrderedEquation}
  {item other : Item} {result : AnalysedEquation} {role : Role} {declaration record : Nat}
  {found : AnalysedVariable}

theorem Ordered.computing (ordered : Ordered model number order source equation item) :
    Elimination.Computing (start model) (final model) number order source equation item where
  foundSource := start_getElem?.mpr ordered.foundSource
  found := ordered.found
  order := ordered.order
  single := ordered.single
  computes := ordered.computes
  named := ordered.named
  asked := ordered.asked
  open_ := ordered.open_

/-! ## References and items -/

/-- Scaling keeps the references of an equation. -/
theorem ReportedAt.mem_references
    (reportedAt : ReportedAt model place number order source equation item result) :
    (role, declaration) ∈ result.references ↔
      (role, declaration) ∈ source.expr.mentions .plain ∧ role ≠ .bound := by
  rw [AnalysedEquation.references, List.mem_filter, reportedAt.expr,
    Equation.Expr.mentions_rescale _ _ _ _ (by simp)]
  simp

/-- A reference is bound, and asks for an item. -/
theorem ReportedAt.exists_item (valid : (analyse model).type.isValid)
    (reportedAt : ReportedAt model place number order source equation item result)
    (referred : (role, declaration) ∈ result.references) :
    ∃ record found, BoundTo model declaration record found ∧
      Item.ofRole role record ∈ source.items := by
  obtain ⟨mentioned, asking⟩ := reportedAt.mem_references.mp referred
  obtain ⟨record, found, bound⟩ := exists_boundTo valid reportedAt.membership mentioned
  exact ⟨record, found, bound, (ofRole_mem_items reportedAt.membership asking).mpr
    ⟨declaration, mentioned, bound.recorded⟩⟩

/-- An item is asked for by a reference. -/
theorem ReportedAt.exists_reference (valid : (analyse model).type.isValid)
    (reportedAt : ReportedAt model place number order source equation item result)
    (asking : role ≠ .bound) (asked : Item.ofRole role record ∈ source.items) :
    ∃ declaration found, (role, declaration) ∈ result.references ∧
      BoundTo model declaration record found := by
  obtain ⟨declaration, mentioned, recorded⟩ :=
    (ofRole_mem_items reportedAt.membership asking).mp asked
  obtain ⟨own, found, bound⟩ := exists_boundTo valid reportedAt.membership mentioned
  obtain rfl := Option.some.inj (bound.recorded.symm.trans recorded)
  exact ⟨declaration, found, reportedAt.mem_references.mpr ⟨mentioned, asking⟩, bound⟩

/-- A class is bound to a state exactly if it was one from the start. -/
theorem BoundTo.type_eq_state_iff (valid : (analyse model).type.isValid)
    (bound : BoundTo model declaration record found) :
    found.type = .state ↔ ((start model).registry.get record).kind = .state := by
  refine ⟨kind_start_of_state bound.entry, fun isState => ?_⟩
  have type := (isEntry bound.entry).type
  rw [kind_final valid (by simp [isState]), isState] at type
  exact (Option.some.inj type).symm

/-! ## States and rates -/

theorem Ordered.rateBased_eq (ordered : Ordered model number order source equation item) :
    (final model).rateBased number = equation.rateBased := by
  simp [Elimination.rateBased, ordered.found]

/-- An equation refers to a state exactly if one of its items is a rate, or the value of a class
that was a state from the start. -/
theorem ReportedAt.refersToState_iff (valid : (analyse model).type.isValid)
    (reportedAt : ReportedAt model place number order source equation item result) :
    (analyse model).RefersToState result ↔ (∃ record, .rate record ∈ source.items) ∨
      ∃ record, .value record ∈ source.items ∧
        ((start model).registry.get record).kind = .state := by
  refine or_congr ⟨?_, ?_⟩ ⟨?_, ?_⟩
  · rintro ⟨declaration, referred⟩
    obtain ⟨record, -, -, asked⟩ := reportedAt.exists_item valid referred
    exact ⟨record, asked⟩
  · rintro ⟨record, asked⟩
    have asked : Item.ofRole .differentiated record ∈ source.items := asked
    obtain ⟨declaration, -, referred, -⟩ := reportedAt.exists_reference valid (by decide) asked
    exact ⟨declaration, referred⟩
  · rintro ⟨declaration, place', referred, isState⟩
    obtain ⟨record, found, bound, asked⟩ := reportedAt.exists_item valid referred
    obtain ⟨type, -⟩ := Prod.mk.inj (Option.some.inj (bound.binding.symm.trans isState))
    exact ⟨record, asked, (bound.type_eq_state_iff valid).mp type⟩
  · rintro ⟨record, asked, isState⟩
    have asked : Item.ofRole .plain record ∈ source.items := asked
    obtain ⟨declaration, found, referred, bound⟩ :=
      reportedAt.exists_reference valid (by decide) asked
    have type := (bound.type_eq_state_iff valid).mpr isState
    exact ⟨declaration, found.place, referred, type ▸ bound.binding⟩

/-- An equation uses another one exactly if the value of what that one computes is one of its items,
and is not what it computes itself. -/
theorem ReportedAt.uses_iff (valid : (analyse model).type.isValid)
    (reportedAt : ReportedAt model place number order source equation item result)
    {place' number' order' : Nat} {source' equation' : OrderedEquation} {item' : Item}
    {result' : AnalysedEquation}
    (reportedAt' : ReportedAt model place' number' order' source' equation' item' result') :
    (analyse model).Uses result result' ↔
      .value item'.number ∈ source.items ∧ item'.number ≠ item.number := by
  constructor
  · rintro ⟨-, declaration, referred, apart, binds⟩
    obtain ⟨record, found, bound, asked⟩ := reportedAt.exists_item valid referred
    obtain rfl := (reportedAt'.binds_iff_record valid bound).mp binds
    exact ⟨asked, fun same => apart ((reportedAt.binds_iff_record valid bound).mpr same)⟩
  · rintro ⟨asked, apart⟩
    have asked : Item.ofRole .plain item'.number ∈ source.items := asked
    obtain ⟨declaration, found, referred, bound⟩ :=
      reportedAt.exists_reference valid (by decide) asked
    exact ⟨List.mem_of_getElem? reportedAt'.found, declaration, referred,
      fun binds => apart ((reportedAt.binds_iff_record valid bound).mp binds),
      (reportedAt'.binds_iff_record valid bound).mpr rfl⟩

/-- What an equation computes is of another class than a value that it does not compute, unless that
is the value of a state. -/
theorem Ordered.ne_number (ordered : Ordered model number order source equation item)
    (noState : ((start model).registry.get record).kind ≠ .state)
    (different : .value record ≠ item) : record ≠ item.number := by
  rintro rfl
  cases item with
  | value own => exact different rfl
  | rate own => exact noState ordered.open_

/-- A class that names an equation is computed by a reported one. -/
theorem exists_reportedAt_of_equation (valid : (analyse model).type.isValid)
    (named : ((final model).registry.get record).equation = some number) :
    ∃ place order source equation item result,
      ReportedAt model place number order source equation item result ∧ item.number = record := by
  obtain ⟨equation, -, order, foundFinal, ordered, -⟩ :=
    Elimination.exists_computing (ready model) (moves model) named
  obtain ⟨place, listed⟩ :=
    exists_place (Elimination.orderOf_eq_some.mpr ⟨equation, foundFinal, ordered⟩)
  obtain ⟨order, source, equation, item, result, reportedAt⟩ :=
    exists_reportedAt_of_mem valid listed
  exact ⟨place, order, source, equation, item, result, reportedAt, reportedAt.number_eq named⟩

/-- An equation depends on states or rates exactly if it refers to one, or uses an equation that
does. -/
theorem ReportedAt.rateBased_iff (valid : (analyse model).type.isValid)
    (reportedAt : ReportedAt model place number order source equation item result) :
    result.rateBased = true ↔ (analyse model).RefersToState result ∨
      ∃ other, (analyse model).Uses result other ∧ other.rateBased = true := by
  have loop : Elimination.Loop (index model) (start model) (final model) :=
    Elimination.loop_run (index model) (start model)
  rw [reportedAt.rateBased valid, reportedAt.refersToState_iff valid,
    reportedAt.ordered.computing.rateBased_iff (ready model) loop (moves model)]
  constructor
  · rintro ⟨other, asked, based, different⟩
    cases other with
    | rate record => exact .inl (.inl ⟨record, asked⟩)
    | value record =>
        by_cases isState : ((start model).registry.get record).kind = .state
        · exact .inl (.inr ⟨record, asked, isState⟩)
        obtain ⟨number', named, flag⟩ := based.resolve_left isState
        obtain ⟨_, _, _, _, _, other, reportedAt', rfl⟩ :=
          exists_reportedAt_of_equation valid named
        refine .inr ⟨other, (reportedAt.uses_iff valid reportedAt').mpr ⟨asked, ?_⟩, ?_⟩
        · exact reportedAt.ordered.ne_number isState (different.resolve_left (by simp))
        · rw [reportedAt'.rateBased valid, ← reportedAt'.ordered.rateBased_eq, flag]
  · rintro ((⟨record, asked⟩ | ⟨record, asked, isState⟩) | ⟨other, uses, flag⟩)
    · exact ⟨.rate record, asked, trivial, .inl ⟨record, rfl⟩⟩
    · refine ⟨.value record, asked, .inl isState, .inr ?_⟩
      rintro rfl
      cases isState.symm.trans reportedAt.ordered.open_
    · obtain ⟨_, number', _, _, _, item', reportedAt'⟩ :=
        exists_reportedAt_of_mem_equations valid uses.1
      obtain ⟨asked, different⟩ := (reportedAt.uses_iff valid reportedAt').mp uses
      refine ⟨.value item'.number, asked, .inr ⟨number', reportedAt'.ordered.named, ?_⟩, .inr ?_⟩
      · rw [reportedAt'.ordered.rateBased_eq, ← reportedAt'.rateBased valid, flag]
      · rintro rfl
        exact different rfl

/-- An equation that is used has been ordered before, unless what is used is a state. -/
theorem ReportedAt.order_lt_of_uses (valid : (analyse model).type.isValid)
    (reportedAt : ReportedAt model place number order source equation item result)
    {place' number' order' : Nat} {source' equation' : OrderedEquation} {item' : Item}
    {result' : AnalysedEquation}
    (reportedAt' : ReportedAt model place' number' order' source' equation' item' result')
    (uses : (analyse model).Uses result result')
    (noState : ¬(analyse model).RefersToState result) : order' < order := by
  obtain ⟨asked, apart⟩ := (reportedAt.uses_iff valid reportedAt').mp uses
  have open_ := reportedAt'.ordered.open_
  cases item' with
  | rate record =>
      exact absurd ((reportedAt.refersToState_iff valid).mpr (.inr ⟨record, asked, open_⟩)) noState
  | value record =>
      have different : Item.value record ≠ item := fun same => apart (congrArg Item.number same)
      have unsettled := Item.isSettled_of_isOpen open_ ((ready model).unplaced_of_isOpen open_)
      obtain ⟨before, earlier, _, _, less, computing⟩ :=
        reportedAt.ordered.computing.exists_earlier (ready model) (moves model) asked different
          unsettled
      obtain rfl := computing.number_eq reportedAt'.ordered.computing
      rwa [← computing.order_eq reportedAt'.ordered.computing]

/-- What depends on states or rates reaches an equation that refers to one through the equations
that it uses. -/
theorem ReportedAt.exists_reaches (valid : (analyse model).type.isValid) (order : Nat) :
    ∀ {place number source equation item result},
      ReportedAt model place number order source equation item result → result.rateBased = true →
      ∃ other, ReflTransGen (analyse model).Uses result other ∧
        (analyse model).RefersToState other := by
  -- Equations may use each other in a circle only through states, so the induction is on orders.
  induction order using Nat.strongRecOn with
  | ind order ih =>
      intro place number source equation item result reportedAt based
      by_cases refers : (analyse model).RefersToState result
      · exact ⟨result, .refl, refers⟩
      obtain ⟨next, uses, based⟩ := ((reportedAt.rateBased_iff valid).mp based).resolve_left refers
      obtain ⟨_, _, _, _, _, _, reportedAt'⟩ := exists_reportedAt_of_mem_equations valid uses.1
      have less := reportedAt.order_lt_of_uses valid reportedAt' uses refers
      obtain ⟨other, reaches, refers⟩ := ih _ less reportedAt' based
      exact ⟨other, .head uses reaches, refers⟩

/-- An equation is reported as dependent on states and rates exactly if it refers to a rate, to the
value of a state or to the value of another class that such an equation computes. It is so exactly
if it reaches a state or a rate through the equations that it uses, for which it does not matter in
which order the equations were found. -/
theorem rateBased_iff_reaches_state (model : Model) (valid : (analyse model).type.isValid) :
    ∀ result ∈ (analyse model).equations,
      (result.rateBased = true ↔ (analyse model).RefersToState result ∨
        ∃ other, (analyse model).Uses result other ∧ other.rateBased = true) ∧
      (result.rateBased = true ↔ ∃ other, ReflTransGen (analyse model).Uses result other ∧
        (analyse model).RefersToState other) := by
  have step : ∀ result ∈ (analyse model).equations,
      result.rateBased = true ↔ (analyse model).RefersToState result ∨
        ∃ other, (analyse model).Uses result other ∧ other.rateBased = true := by
    intro result isEquation
    obtain ⟨_, _, _, _, _, _, reportedAt⟩ := exists_reportedAt_of_mem_equations valid isEquation
    exact reportedAt.rateBased_iff valid
  refine fun result isEquation => ⟨step result isEquation, ?_, ?_⟩
  · intro based
    obtain ⟨_, _, _, _, _, _, reportedAt⟩ := exists_reportedAt_of_mem_equations valid isEquation
    exact ReportedAt.exists_reaches valid _ reportedAt based
  · rintro ⟨other, reaches, refers⟩
    induction reaches using ReflTransGen.head_induction_on with
    | refl => exact (step _ isEquation).mpr (.inl refers)
    | head uses _ ih => exact (step _ isEquation).mpr (.inr ⟨_, uses, ih uses.1⟩)

theorem refersToState_growth : ∀ result ∈ (analyse growth).equations,
    (analyse growth).RefersToState result := by
  intro result isEquation
  obtain ⟨_, _, _, source, _, _, reportedAt⟩ :=
    exists_reportedAt_of_mem_equations valid_growth isEquation
  rcases source_growth reportedAt with ⟨-, expr⟩ | ⟨-, expr⟩
  · exact .inl ⟨1, reportedAt.mem_references.mpr ⟨by rw [expr]; decide, by decide⟩⟩
  · have referred : (.plain, 1) ∈ result.references :=
      reportedAt.mem_references.mpr ⟨by rw [expr]; decide, by decide⟩
    obtain ⟨record, found, bound, -⟩ := reportedAt.exists_item valid_growth referred
    obtain rfl := Option.some.inj (assignsOpen_growth_rate.recorded.symm.trans bound.recorded)
    have isState : ((start growth).registry.get 1).kind = .state := by
      rw [start, derivatives_growth, gathered_growth]
      cbv
    have type := (bound.type_eq_state_iff valid_growth).mpr isState
    exact .inr ⟨1, found.place, referred, type ▸ bound.binding⟩

/-- In the model `y = x`, `dx/dt = y` both equations depend on the state. -/
theorem growth_depends_on_states : (analyse growth).type = .ode ∧
    ∀ result ∈ (analyse growth).equations, result.rateBased = true := by
  refine ⟨type_growth, fun result isEquation => ?_⟩
  obtain ⟨direct, -⟩ := rateBased_iff_reaches_state growth valid_growth result isEquation
  exact direct.mpr (.inl (refersToState_growth result isEquation))

end Stage

end ComponentModel.Analysis
