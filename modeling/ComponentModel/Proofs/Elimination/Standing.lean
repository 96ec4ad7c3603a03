import ComponentModel.Proofs.Elimination.Loop

/-!
# How records stand during an elimination

An elimination starts from records whose kinds say what is known before any equation is solved,
and from equations with all their references open. From there a record has four ways to go: it is
left alone, it is marked as constrained twice although it was given, its value is computed, or its
rate is. An equation only ever loses references.
-/

namespace ComponentModel.Analysis

/-- Whether a kind is among those that classes have before any equation is solved. -/
def Kind.isInitial : Kind → Bool
  | unknown | shouldBeState | integrationVariable | state | constant => true
  | _ => false

namespace Elimination

open Relation (ReflTransGen)

/-- An elimination before its first pass. Constants have their places, every equation refers to
each item once and to none outside the records, and only what has been found differentiated is
differentiated. -/
structure Start (state : Elimination) : Prop where
  initial : ∀ number, (state.registry.get number).kind.isInitial
  placed : ∀ number, (state.registry.get number).place.isSome ↔
    (state.registry.get number).kind = .constant
  place_lt : ∀ number place, (state.registry.get number).place = some place →
    place < state.counters.other
  place_injective : ∀ one other, (state.registry.get one).place.isSome →
    (state.registry.get one).place = (state.registry.get other).place → one = other
  uncomputed : ∀ number, (state.registry.get number).equation = none
  noStates : state.counters.state = 0
  noOrders : state.counters.order = 0
  untouched : ∀ equation ∈ state.equations,
    equation = .new equation.expr equation.component equation.plain equation.differentiated
  items_nodup : ∀ equation ∈ state.equations, equation.items.Nodup
  inside : ∀ equation ∈ state.equations, ∀ item ∈ equation.items,
    item.number < state.registry.length
  differentiable : ∀ equation ∈ state.equations, ∀ number ∈ equation.differentiated,
    (state.registry.get number).kind ≠ .unknown ∧ (state.registry.get number).kind ≠ .constant

/-- An equation has no order before the first pass. -/
theorem Start.waiting {state : Elimination} (ready : Start state) {equation : OrderedEquation}
    (membership : equation ∈ state.equations) : equation.order = none := by
  rw [ready.untouched equation membership]
  rfl

/-- The ways a record goes from where it started. -/
inductive Standing (origin record : Record) : Prop where
  /-- Nothing has happened to what is known about the class. -/
  | untouched (kind : record.kind = origin.kind) (place : record.place = origin.place)
      (equation : record.equation = none)
  /-- A constant is constrained by an equation. -/
  | twice (given : origin.kind = .constant) (kind : record.kind = .overconstrained)
      (place : record.place = origin.place) (equation : record.equation = none)
  /-- An equation computes the value. -/
  | value (open_ : origin.kind = .unknown)
      (kind : record.kind = .computedTrueConstant ∨
        record.kind = .computedVariableBasedConstant ∨ record.kind = .algebraic ∨
        record.kind = .overconstrained)
      (place : record.place.isSome) (equation : record.equation.isSome)
  /-- An equation computes the rate. -/
  | rate (state : origin.kind = .state)
      (kind : record.kind = .state ∨ record.kind = .overconstrained)
      (place : record.place.isSome) (equation : record.equation.isSome)

namespace Standing

variable {origin record : Record}

/-- How a record stands depends on its kind, its place and its equation. -/
theorem congr {changed : Record} (standing : Standing origin record)
    (kind : changed.kind = record.kind) (place : changed.place = record.place)
    (equation : changed.equation = record.equation) : Standing origin changed := by
  cases standing with
  | untouched kind' place' equation' =>
      exact .untouched (kind.trans kind') (place.trans place') (equation.trans equation')
  | twice given kind' place' equation' =>
      exact .twice given (kind.trans kind') (place.trans place') (equation.trans equation')
  | value open_ kind' place' equation' =>
      exact .value open_ (kind ▸ kind') (place ▸ place') (equation ▸ equation')
  | rate state kind' place' equation' =>
      exact .rate state (kind ▸ kind') (place ▸ place') (equation ▸ equation')

/-- What is marked as constrained twice was given or computed. -/
theorem mark (standing : Standing origin record)
    (given : origin.place.isSome → origin.kind = .constant) (placed : record.place.isSome) :
    Standing origin { record with kind := .overconstrained } := by
  cases standing with
  | untouched kind place equation =>
      exact .twice (given (place ▸ placed)) rfl place equation
  | twice constant kind place equation => exact .twice constant rfl place equation
  | value open_ kind place equation => exact .value open_ (by simp) place equation
  | rate state kind place equation => exact .rate state (by simp) place equation

/-- A record whose class started without a place and has none yet is as it was. -/
theorem of_unplaced (standing : Standing origin record)
    (given : origin.kind = .constant → origin.place.isSome) (unplaced : record.place = none) :
    record.kind = origin.kind ∧ record.equation = none := by
  cases standing with
  | untouched kind place equation => exact ⟨kind, equation⟩
  | twice constant kind place equation =>
      have placed := given constant
      simp [← place, unplaced] at placed
  | value _ _ place _ => simp [unplaced] at place
  | rate _ _ place _ => simp [unplaced] at place

end Standing

/-! ## Equations only lose references -/

variable {index : Index} {start state next : Elimination}

/-- What one move makes of the equation of a number. -/
inductive EquationMove (state : Elimination) (number : Nat) (equation : OrderedEquation) :
    OrderedEquation → Prop
  | kept : EquationMove state number equation equation
  | reduced (waiting : equation.order = none) :
      EquationMove state number equation (state.reduced number equation)
  | ordered (item : Item) (waiting : equation.order = none) (single : equation.items = [item])
      (unsettled : item.isSettled state.registry = false) (kind : Kind) :
      EquationMove state number equation
        (equation.ordered state.counters.order kind item.number)

theorem equationMove_of_move (move : Move index state next) {number : Nat}
    {changed : OrderedEquation} (found : next.equations[number]? = some changed) :
    ∃ equation, state.equations[number]? = some equation ∧
      EquationMove state number equation changed := by
  cases move with
  | mark => exact ⟨changed, found, .kept⟩
  | report => exact ⟨changed, found, .kept⟩
  | reduce other equation foundOther waiting =>
      by_cases same : other = number
      · subst same
        have inside := (List.getElem?_eq_some_iff.mp foundOther).1
        simp only [setEquation, List.getElem?_set_self inside, Option.some.injEq] at found
        subst found
        exact ⟨equation, foundOther, .reduced waiting⟩
      · simp only [setEquation, List.getElem?_set_ne same] at found
        exact ⟨changed, found, .kept⟩
  | compute other equation item foundOther waiting single unsettled computable =>
      by_cases same : other = number
      · subst same
        have inside := (List.getElem?_eq_some_iff.mp foundOther).1
        simp only [compute, List.getElem?_set_self inside, Option.some.injEq] at found
        subst found
        exact ⟨equation, foundOther, .ordered item waiting single unsettled _⟩
      · simp only [compute, List.getElem?_set_ne same] at found
        exact ⟨changed, found, .kept⟩

/-- An equation keeps its expression and its component, and its open items are among those it
started with. -/
theorem origin_of_moves (moves : ReflTransGen (Move index) start state) {number : Nat}
    {equation : OrderedEquation} (found : state.equations[number]? = some equation) :
    ∃ origin, start.equations[number]? = some origin ∧ equation.expr = origin.expr ∧
      equation.component = origin.component ∧ equation.items.Sublist origin.items := by
  induction moves generalizing equation with
  | refl => exact ⟨equation, found, rfl, rfl, .refl _⟩
  | tail _ move ih =>
      obtain ⟨before, foundBefore, change⟩ := equationMove_of_move move found
      obtain ⟨origin, foundOrigin, expr, component, items⟩ := ih foundBefore
      refine ⟨origin, foundOrigin, ?_⟩
      cases change with
      | kept => exact ⟨expr, component, items⟩
      | reduced =>
          refine ⟨expr, component, .trans ?_ items⟩
          rw [Elimination.reduced, OrderedEquation.items_reduce]
          exact List.filter_sublist
      | ordered => exact ⟨expr, component, items⟩

/-! ## Records stand in one of four ways -/

theorem eq_unknown_of_resolved {equation : OrderedEquation} {kind : Kind}
    (initial : kind.isInitial) (waiting : kind.isKnown = false)
    (computable : (equation.resolved kind).isComputable) : kind = .unknown := by
  cases kind <;> simp [Kind.isInitial, Kind.isKnown] at initial waiting
  · rfl
  · cases computable

theorem eq_state_of_resolved {equation : OrderedEquation} {kind : Kind}
    (initial : kind.isInitial) (met : kind ≠ .unknown)
    (computable : (equation.resolved kind).isComputable) : kind = .state := by
  cases kind <;> simp [Kind.isInitial] at initial met
  case state => rfl
  all_goals cases computable

/-- What an equation computes is the value of a class that nothing is known about, or the rate of
a state, and has been so from the start. -/
theorem isOpen_of_computable (ready : Start start)
    (standing : ∀ number, Standing (start.registry.get number) (state.registry.get number))
    {origin equation : OrderedEquation} (member : origin ∈ start.equations) {item : Item}
    (asked : item ∈ origin.items) (unsettled : item.isSettled state.registry = false)
    (computable : (equation.resolved (state.registry.get item.number).kind).isComputable) :
    item.IsOpen start.registry ∧ item.IsOpen state.registry := by
  have unplaced := Item.place_eq_none unsettled
  have kept := (standing item.number).of_unplaced
    (fun given => (ready.placed item.number).mpr given) unplaced
  have initial := kept.1 ▸ ready.initial item.number
  cases item with
  | value number =>
      have waiting : (state.registry.get number).kind.isKnown = false := by
        simp only [Item.isSettled, Record.isKnown, Bool.or_eq_false_iff] at unsettled
        exact unsettled.2
      have unknown := eq_unknown_of_resolved initial waiting computable
      exact ⟨kept.1.symm.trans unknown, unknown⟩
  | rate number =>
      have differentiable := ready.differentiable origin member number
        (OrderedEquation.rate_mem_items.mp asked)
      have met : (state.registry.get number).kind ≠ .unknown := kept.1 ▸ differentiable.1
      have isState := eq_state_of_resolved initial met computable
      exact ⟨kept.1.symm.trans isState, isState⟩

theorem get_compute_self {number last : Nat} {equation : OrderedEquation}
    (inside : last < state.registry.length) :
    (state.compute number equation last).registry.get last =
      { state.registry.get last with
        kind := equation.resolved (state.registry.get last).kind
        place := some (nextPlace state.counters
          (equation.resolved (state.registry.get last).kind))
        equation := some number } :=
  Registry.get_change_self _ inside

theorem get_compute_of_ne {number last other : Nat} {equation : OrderedEquation}
    (different : last ≠ other) :
    (state.compute number equation last).registry.get other = state.registry.get other :=
  Registry.get_change_of_ne _ different

@[simp] theorem length_registry_of_move (move : Move index state next) :
    next.registry.length = state.registry.length := by
  cases move <;> simp [mark, setEquation, report, compute]

theorem length_registry_of_moves (moves : ReflTransGen (Move index) start state) :
    state.registry.length = start.registry.length := by
  induction moves with
  | refl => rfl
  | tail _ move ih => rw [length_registry_of_move move, ih]

/-- No move touches the classes that records stand for. -/
theorem representatives_of_moves (moves : ReflTransGen (Move index) start state) :
    state.registry.map Record.representative = start.registry.map Record.representative := by
  induction moves with
  | refl => rfl
  | tail _ move ih =>
      cases move with
      | mark => exact (Registry.map_representative_change _ rfl).trans ih
      | reduce => exact ih
      | report => exact (Registry.map_representative_change _ rfl).trans ih
      | compute => exact (Registry.map_representative_change _ rfl).trans ih

theorem standing_of_moves (ready : Start start) (moves : ReflTransGen (Move index) start state)
    (number : Nat) : Standing (start.registry.get number) (state.registry.get number) := by
  induction moves generalizing number with
  | refl => exact .untouched rfl rfl (ready.uncomputed number)
  | tail moves move ih =>
      cases move with
      | mark other placed met initialised =>
          by_cases same : other = number
          · subst same
            rw [mark, Registry.get_change_self _ (Registry.lt_length_of_place placed)]
            exact (ih other).mark (ready.placed other).mp placed
          · rw [mark, Registry.get_change_of_ne _ same]
            exact ih number
      | reduce => exact ih number
      | report other declaration _ =>
          exact (ih number).congr (kind_report ..) (place_report ..) (equation_report ..)
      | compute other equation item found waiting single unsettled computable =>
          obtain ⟨origin, foundOrigin, -, -, items⟩ := origin_of_moves moves found
          have member := List.mem_of_getElem? foundOrigin
          have asked : item ∈ origin.items := items.subset (by simp [single])
          have inside : item.number < _ := length_registry_of_moves moves ▸
            ready.inside origin member item asked
          by_cases same : item.number = number
          · subst same
            rw [get_compute_self inside]
            have openItem := isOpen_of_computable ready ih member asked unsettled computable
            cases item with
            | value number =>
                refine .value openItem.1 ?_ rfl rfl
                simp only [Item.number_value, show (_ : Record).kind = _ from openItem.2,
                  OrderedEquation.resolved, Kind.resolvedBy]
                split
                · exact Or.inl rfl
                · split
                  · exact Or.inr (Or.inl rfl)
                  · exact Or.inr (Or.inr (Or.inl rfl))
            | rate number =>
                refine .rate openItem.1 ?_ rfl rfl
                simp [show (_ : Record).kind = _ from openItem.2, OrderedEquation.resolved,
                  Kind.resolvedBy]
          · rw [get_compute_of_ne same]
            exact ih number

/-- Nothing is known about a class at some point exactly if nothing was known about it in the
beginning and it has got no place. -/
theorem kind_eq_unknown_iff (ready : Start start)
    (moves : ReflTransGen (Move index) start state) (number : Nat) :
    (state.registry.get number).kind = .unknown ↔
      (start.registry.get number).kind = .unknown ∧ ¬(state.registry.get number).place.isSome := by
  cases standing_of_moves ready moves number with
  | untouched kind place _ =>
      rw [kind, place]
      constructor
      · intro unknown
        refine ⟨unknown, fun placed => ?_⟩
        rw [(ready.placed number).mp placed] at unknown
        cases unknown
      · exact And.left
  | twice given kind => simp [given, kind]
  | value _ kind place _ => rcases kind with kind | kind | kind | kind <;> simp [kind, place]
  | rate given kind => rcases kind with kind | kind <;> simp [given, kind]

end Elimination

end ComponentModel.Analysis
