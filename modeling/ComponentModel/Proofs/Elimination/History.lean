import ComponentModel.Proofs.Elimination.Standing

/-!
# Who computes what, and when

The orders that equations are given record the history of an elimination. An equation with an
order computes exactly one of its items, the record of that item names the equation, and all its
other items were available from the start or are computed by equations with smaller orders.
-/

namespace ComponentModel.Analysis

namespace Elimination

open Relation (ReflTransGen)

/-- The order of the equation of a number. -/
def orderOf (state : Elimination) (number : Nat) : Option Nat :=
  state.equations[number]?.bind OrderedEquation.order

/-- An item that no equation settles from the start on, or that an equation has settled before a
limit, if there is one. -/
def SettledBefore (start state : Elimination) (limit : Option Nat) (item : Item) : Prop :=
  item.isSettled start.registry ∨
    ∃ number order, (state.registry.get item.number).equation = some number ∧
      state.orderOf number = some order ∧ ∀ bound, limit = some bound → order < bound

/-- How far an equation has come. -/
structure Progress (start state : Elimination) (number : Nat)
    (origin equation : OrderedEquation) : Prop where
  removed : ∀ item ∈ origin.items, item ∉ equation.items →
    SettledBefore start state equation.order item
  waiting : equation.order = none → equation.computes = none ∧ equation.kind = .unknown
  ordered : ∀ order, equation.order = some order → order < state.counters.order ∧
    ∃ item, equation.items = [item] ∧ equation.computes = some item.number ∧
      (state.registry.get item.number).equation = some number ∧ item.IsOpen start.registry

/-- The history of an elimination: every record that names an equation is computed by it, and
every equation has come as far as its order says. -/
structure History (start state : Elimination) : Prop where
  owner : ∀ record number, (state.registry.get record).equation = some number →
    ∃ equation, state.equations[number]? = some equation ∧ equation.order.isSome ∧
      equation.computes = some record
  progress : ∀ number origin equation, start.equations[number]? = some origin →
    state.equations[number]? = some equation → Progress start state number origin equation

variable {index : Index} {start state next : Elimination}

theorem orderOf_eq_some {number order : Nat} :
    state.orderOf number = some order ↔
      ∃ equation, state.equations[number]? = some equation ∧ equation.order = some order := by
  simp [orderOf, Option.bind_eq_some_iff]

/-- An order stays. -/
theorem orderOf_of_move (move : Move index state next) {number order : Nat}
    (ordered : state.orderOf number = some order) : next.orderOf number = some order := by
  obtain ⟨equation, found, done⟩ := orderOf_eq_some.mp ordered
  cases move with
  | mark => exact ordered
  | report => exact ordered
  | reduce other equation' foundOther waiting =>
      have different : other ≠ number := by
        rintro rfl
        rw [found, Option.some.injEq] at foundOther
        subst foundOther
        simp [waiting] at done
      simpa [orderOf, setEquation, List.getElem?_set_ne different] using ordered
  | compute other equation' item foundOther waiting =>
      have different : other ≠ number := by
        rintro rfl
        rw [found, Option.some.injEq] at foundOther
        subst foundOther
        simp [waiting] at done
      simpa [orderOf, compute, List.getElem?_set_ne different] using ordered

/-- The equation of a record stays, since only a record without a place is given one. -/
theorem equation_of_move (standing : ∀ number,
      Standing (start.registry.get number) (state.registry.get number))
    (ready : Start start) (move : Move index state next) {record number : Nat}
    (computed : (state.registry.get record).equation = some number) :
    (next.registry.get record).equation = some number := by
  cases move with
  | mark => exact (equation_mark ..).trans computed
  | report => exact (equation_report ..).trans computed
  | reduce => exact computed
  | compute other equation item found waiting single unsettled =>
      have different : item.number ≠ record := by
        rintro rfl
        have kept := (standing item.number).of_unplaced
          (fun given => (ready.placed item.number).mpr given) (Item.place_eq_none unsettled)
        simp [kept.2] at computed
      rw [get_compute_of_ne different]
      exact computed

/-- What has been settled before a limit stays so. -/
theorem SettledBefore.of_move (ready : Start start)
    (moves : ReflTransGen (Move index) start state) (move : Move index state next)
    {limit : Option Nat} {item : Item} (settled : SettledBefore start state limit item) :
    SettledBefore start next limit item := by
  rcases settled with given | ⟨number, order, computed, ordered, before⟩
  · exact Or.inl given
  · refine Or.inr ⟨number, order, ?_, orderOf_of_move move ordered, before⟩
    exact equation_of_move (standing_of_moves ready moves) ready move computed

/-- What is settled now was available from the start or has been computed before the next
order. -/
theorem History.settledBefore (history : History start state) (ready : Start start)
    (moves : ReflTransGen (Move index) start state) {limit : Option Nat}
    (later : ∀ bound, limit = some bound → state.counters.order ≤ bound) {item : Item}
    (settled : item.isSettled state.registry) : SettledBefore start state limit item := by
  have computed (named : (state.registry.get item.number).equation.isSome) :
      SettledBefore start state limit item := by
    obtain ⟨number, equal⟩ := Option.isSome_iff_exists.mp named
    obtain ⟨equation, found, done, -⟩ := history.owner item.number number equal
    obtain ⟨order, ordered⟩ := Option.isSome_iff_exists.mp done
    obtain ⟨origin, foundOrigin, -⟩ := origin_of_moves moves found
    have progress := history.progress number origin equation foundOrigin found
    refine Or.inr ⟨number, order, equal, orderOf_eq_some.mpr ⟨equation, found, ordered⟩, ?_⟩
    intro bound isLimit
    exact Nat.lt_of_lt_of_le (progress.ordered order ordered).1 (later bound isLimit)
  cases standing_of_moves ready moves item.number with
  | untouched kind place _ => exact Or.inl (Item.isSettled_congr kind place ▸ settled)
  | twice given =>
      exact Or.inl (Item.isSettled_of_place item ((ready.placed item.number).mpr given))
  | value _ _ _ named => exact computed named
  | rate _ _ _ named => exact computed named

/-! ## Every move goes on with the history -/

theorem order_le_of_move (move : Move index state next) :
    state.counters.order ≤ next.counters.order := by
  cases move with
  | mark => exact Nat.le_refl _
  | reduce => exact Nat.le_refl _
  | report => exact Nat.le_refl _
  | compute => exact Nat.le_succ _

/-- An equation that a move leaves alone is as far as before. -/
theorem Progress.of_move (ready : Start start) (moves : ReflTransGen (Move index) start state)
    (move : Move index state next) {number : Nat} {origin equation : OrderedEquation}
    (progress : Progress start state number origin equation) :
    Progress start next number origin equation where
  removed := by
    intro item asked gone
    exact (progress.removed item asked gone).of_move ready moves move
  waiting := progress.waiting
  ordered := by
    intro order ordered
    obtain ⟨bound, item, single, computes, named, open_⟩ := progress.ordered order ordered
    refine ⟨Nat.lt_of_lt_of_le bound (order_le_of_move move), item, single, computes, ?_, open_⟩
    exact equation_of_move (standing_of_moves ready moves) ready move named

/-- A reduction takes settled items off. -/
theorem Progress.reduced (ready : Start start) (moves : ReflTransGen (Move index) start state)
    (history : History start state) {number : Nat} {origin equation : OrderedEquation}
    (waiting : equation.order = none)
    (progress : Progress start state number origin equation) :
    Progress start state number origin (state.reduced number equation) where
  removed := by
    intro item asked gone
    by_cases kept : item ∈ equation.items
    · refine history.settledBefore ready moves ?_ ?_
      · intro bound isLimit
        rw [Elimination.reduced, OrderedEquation.order_reduce, waiting] at isLimit
        cases isLimit
      · simpa [Elimination.reduced, kept] using gone
    · exact progress.removed item asked kept
  waiting := progress.waiting
  ordered := by
    intro order ordered
    rw [Elimination.reduced, OrderedEquation.order_reduce, waiting] at ordered
    cases ordered

theorem history_of_start (ready : Start start) : History start start where
  owner := by
    intro record number named
    rw [ready.uncomputed record] at named
    cases named
  progress := by
    intro number origin equation foundOrigin found
    obtain rfl : origin = equation := Option.some.inj (foundOrigin.symm.trans found)
    have member := List.mem_of_getElem? found
    have untouched := ready.untouched origin member
    refine ⟨fun item asked gone => absurd asked gone, fun _ => ?_, fun order ordered => ?_⟩
    · rw [untouched]
      exact ⟨rfl, rfl⟩
    · rw [ready.waiting member] at ordered
      cases ordered

/-- The equation that a move gives an order has settled everything else before. -/
theorem Progress.ordered_of_waiting {number : Nat} {origin equation : OrderedEquation}
    (waiting : equation.order = none)
    (progress : Progress start state number origin equation) {item : Item} {kind : Kind}
    (single : equation.items = [item]) (open_ : item.IsOpen start.registry)
    (named : (next.registry.get item.number).equation = some number)
    (counted : next.counters.order = state.counters.order + 1)
    (settled : ∀ item, SettledBefore start state none item →
      SettledBefore start next (some state.counters.order) item) :
    Progress start next number origin
      (equation.ordered state.counters.order kind item.number) where
  removed := by
    intro other asked gone
    refine settled other ?_
    rw [← waiting]
    exact progress.removed other asked gone
  waiting := by
    intro impossible
    cases impossible
  ordered := by
    intro order equal
    cases equal
    exact ⟨by omega, item, single, rfl, named, open_⟩

/-- Orders are below the next free one. -/
theorem History.order_lt (history : History start state)
    (moves : ReflTransGen (Move index) start state) {number order : Nat}
    (ordered : state.orderOf number = some order) : order < state.counters.order := by
  obtain ⟨equation, found, done⟩ := orderOf_eq_some.mp ordered
  obtain ⟨origin, foundOrigin, -⟩ := origin_of_moves moves found
  exact ((history.progress number origin equation foundOrigin found).ordered order done).1

/-- What has been settled at all has been settled before the next free order. -/
theorem SettledBefore.limited (history : History start state)
    (moves : ReflTransGen (Move index) start state) {item : Item}
    (settled : SettledBefore start state none item) :
    SettledBefore start state (some state.counters.order) item := by
  rcases settled with given | ⟨number, order, computed, ordered, -⟩
  · exact Or.inl given
  · refine Or.inr ⟨number, order, computed, ordered, fun bound isLimit => ?_⟩
    cases isLimit
    exact history.order_lt moves ordered

theorem history_of_move (ready : Start start) (moves : ReflTransGen (Move index) start state)
    (history : History start state) (move : Move index state next) : History start next := by
  have passed : ∀ number origin equation, start.equations[number]? = some origin →
      state.equations[number]? = some equation → Progress start next number origin equation :=
    fun number origin equation foundOrigin found =>
      (history.progress number origin equation foundOrigin found).of_move ready moves move
  cases move with
  | mark other =>
      refine ⟨fun record number named => ?_, passed⟩
      exact history.owner record number ((equation_mark ..).symm.trans named)
  | report other declaration =>
      refine ⟨fun record number named => ?_, passed⟩
      exact history.owner record number ((equation_report ..).symm.trans named)
  | reduce other equation foundOther waiting =>
      refine ⟨fun record number named => ?_, fun number origin changed foundOrigin found => ?_⟩
      · obtain ⟨owning, found, done, computes⟩ := history.owner record number named
        have different : other ≠ number := by
          rintro rfl
          obtain rfl := Option.some.inj (foundOther.symm.trans found)
          simp [waiting] at done
        exact ⟨owning, by simpa [setEquation, List.getElem?_set_ne different] using found, done,
          computes⟩
      · by_cases same : other = number
        · subst same
          have inside := (List.getElem?_eq_some_iff.mp foundOther).1
          simp only [setEquation, List.getElem?_set_self inside, Option.some.injEq] at found
          subst found
          have progress := history.progress other origin equation foundOrigin foundOther
          exact (progress.reduced ready moves history waiting).of_move ready moves
            (.reduce other equation foundOther waiting)
        · simp only [setEquation, List.getElem?_set_ne same] at found
          exact passed number origin changed foundOrigin found
  | compute other equation item foundOther waiting single unsettled computable =>
      obtain ⟨origin, foundOrigin, -, -, items⟩ := origin_of_moves moves foundOther
      have member := List.mem_of_getElem? foundOrigin
      have asked : item ∈ origin.items := items.subset (by simp [single])
      have insideRecord : item.number < state.registry.length :=
        length_registry_of_moves moves ▸ ready.inside origin member item asked
      have insideEquation := (List.getElem?_eq_some_iff.mp foundOther).1
      have openItem := isOpen_of_computable ready (standing_of_moves ready moves) member asked
        unsettled computable
      refine ⟨fun record number named => ?_, fun number origin changed foundOrigin found => ?_⟩
      · by_cases same : item.number = record
        · subst same
          rw [get_compute_self insideRecord, Option.some.injEq] at named
          subst named
          exact ⟨_, List.getElem?_set_self insideEquation, rfl, rfl⟩
        · rw [get_compute_of_ne same] at named
          obtain ⟨owning, found, done, computes⟩ := history.owner record number named
          have different : other ≠ number := by
            rintro rfl
            obtain rfl := Option.some.inj (foundOther.symm.trans found)
            simp [waiting] at done
          exact ⟨owning, by simpa [compute, List.getElem?_set_ne different] using found, done,
            computes⟩
      · by_cases same : other = number
        · subst same
          simp only [compute, List.getElem?_set_self insideEquation, Option.some.injEq] at found
          subst found
          refine (history.progress other origin equation foundOrigin foundOther).ordered_of_waiting
            waiting single openItem.1 (by rw [get_compute_self insideRecord]) rfl ?_
          intro settledItem settled
          exact (settled.limited history moves).of_move ready moves
            (.compute other equation item foundOther waiting single unsettled computable)
        · simp only [compute, List.getElem?_set_ne same] at found
          exact passed number origin changed foundOrigin found

/-- Every elimination has a history. -/
theorem history_of_moves (ready : Start start) (moves : ReflTransGen (Move index) start state) :
    History start state := by
  induction moves with
  | refl => exact history_of_start ready
  | tail moves move ih => exact history_of_move ready moves ih move

/-- The equation that a record names has an order, and the record's item is what it computes. -/
theorem exists_computing (ready : Start start) (moves : ReflTransGen (Move index) start state)
    {record number : Nat} (named : (state.registry.get record).equation = some number) :
    ∃ equation item order, state.equations[number]? = some equation ∧
      equation.order = some order ∧ equation.items = [item] ∧ item.number = record ∧
      equation.computes = some record ∧ item.IsOpen start.registry := by
  have history := history_of_moves ready moves
  obtain ⟨equation, found, done, computes⟩ := history.owner record number named
  obtain ⟨order, ordered⟩ := Option.isSome_iff_exists.mp done
  obtain ⟨origin, foundOrigin, -⟩ := origin_of_moves moves found
  have progress := history.progress number origin equation foundOrigin found
  obtain ⟨-, item, single, computesItem, -, open_⟩ := progress.ordered order ordered
  have same : item.number = record := Option.some.inj (computesItem.symm.trans computes)
  exact ⟨equation, item, order, found, ordered, single, same, computes, open_⟩

end Elimination

end ComponentModel.Analysis
