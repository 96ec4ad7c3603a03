import ComponentModel.Proofs.Elimination.Trace

/-!
# Places grow with orders

States and all other variables are given their places one after the other, as the equations that
compute them are ordered. Among the states, and among the other variables, an earlier order
therefore means an earlier place.
-/

namespace ComponentModel.Analysis

namespace Elimination

open Relation (ReflTransGen)

variable {index : Index} {start state next : Elimination}

/-! ## Orders are counted -/

theorem order_eq_orderedCount (ready : Start start)
    (moves : ReflTransGen (Move index) start state) :
    state.counters.order = state.orderedCount := by
  induction moves with
  | refl =>
      rw [ready.noOrders, orderedCount, eq_comm, List.countP_eq_zero]
      intro equation membership
      simp [ready.waiting membership]
  | tail _ move ih =>
      cases move with
      | mark => exact ih
      | report => exact ih
      | reduce number equation found waiting =>
          refine ih.trans (Eq.symm ?_)
          exact orderedCount_set_waiting found waiting waiting
      | compute number equation item found waiting =>
          exact (congrArg (· + 1) ih).trans (orderedCount_set_ordered found waiting rfl).symm

/-- Orders are below the number of equations that have one. -/
theorem order_lt_orderedCount (ready : Start start)
    (moves : ReflTransGen (Move index) start state) {number order : Nat}
    (ordered : state.orderOf number = some order) : order < state.orderedCount := by
  rw [← order_eq_orderedCount ready moves]
  exact (history_of_moves ready moves).order_lt moves ordered

/-! ## Places -/

/-- The next free place in the array of a class that started with a kind. -/
def freePlace (counters : Counters) (kind : Kind) : Nat :=
  if kind == .state then counters.state else counters.other

/-- The places of computed classes. -/
structure Ascending (start state : Elimination) : Prop where
  bound : ∀ record number, (state.registry.get record).equation = some number →
    ∃ place, (state.registry.get record).place = some place ∧
      place < freePlace state.counters (start.registry.get record).kind
  ascending : ∀ record other number numberOther order orderOther place placeOther,
    (state.registry.get record).equation = some number →
    (state.registry.get other).equation = some numberOther →
    state.orderOf number = some order → state.orderOf numberOther = some orderOther →
    (state.registry.get record).place = some place →
    (state.registry.get other).place = some placeOther →
    ((start.registry.get record).kind = .state ↔ (start.registry.get other).kind = .state) →
    order < orderOther → place < placeOther

theorem freePlace_congr {counters : Counters} {one other : Kind}
    (same : one = .state ↔ other = .state) : freePlace counters one = freePlace counters other := by
  unfold freePlace
  by_cases isState : one = .state
  · simp [isState, same.mp isState]
  · simp [isState, mt same.mpr isState]

theorem freePlace_le_of_move (move : Move index state next) (kind : Kind) :
    freePlace state.counters kind ≤ freePlace next.counters kind := by
  cases move with
  | mark => exact Nat.le_refl _
  | report => exact Nat.le_refl _
  | reduce => exact Nat.le_refl _
  | compute number equation item =>
      simp only [freePlace, compute, advance]
      split <;> split <;> omega

/-- A move that computes nothing leaves the places of computed classes alone. -/
theorem Ascending.of_same (ascending : Ascending start state)
    (place : ∀ record, (next.registry.get record).place = (state.registry.get record).place)
    (equation : ∀ record,
      (next.registry.get record).equation = (state.registry.get record).equation)
    (counters : next.counters = state.counters)
    (orders : ∀ number, next.orderOf number = state.orderOf number) : Ascending start next where
  bound := by
    intro record number named
    rw [counters, place record]
    exact ascending.bound record number ((equation record).symm.trans named)
  ascending := by
    intro record other number numberOther order orderOther placeOf placeOther
    rw [place record, place other, equation record, equation other, orders, orders]
    exact ascending.ascending record other number numberOther order orderOther placeOf placeOther

/-- The kind that an equation gives to what it computes is that of a state exactly if the class
started as one. -/
theorem resolved_eq_state_iff (equation : OrderedEquation) {item : Item}
    (openStart : item.IsOpen start.registry) (open_ : item.IsOpen state.registry) :
    equation.resolved (state.registry.get item.number).kind = .state ↔
      (start.registry.get item.number).kind = .state := by
  cases item with
  | value record =>
      rw [Item.number_value, show (state.registry.get record).kind = .unknown from open_,
        show (start.registry.get record).kind = .unknown from openStart]
      unfold OrderedEquation.resolved Kind.resolvedBy
      grind
  | rate record =>
      rw [Item.number_rate, show (state.registry.get record).kind = .state from open_,
        show (start.registry.get record).kind = .state from openStart]
      exact ⟨fun _ => rfl, fun _ => rfl⟩

theorem orderOf_setEquation_reduced {number : Nat} {equation : OrderedEquation}
    (found : state.equations[number]? = some equation) (other : Nat) :
    (state.setEquation number (state.reduced number equation)).orderOf other =
      state.orderOf other := by
  unfold orderOf setEquation
  by_cases same : number = other
  · subst same
    rw [List.getElem?_set_self (List.getElem?_eq_some_iff.mp found).1, found]
    rfl
  · rw [List.getElem?_set_ne same]

/-- What an equation computes gets the next free place. -/
theorem Ascending.compute (ready : Start start) (moves : ReflTransGen (Move index) start state)
    (ascending : Ascending start state) {number : Nat} {equation : OrderedEquation} {item : Item}
    (found : state.equations[number]? = some equation) (waiting : equation.order = none)
    (single : equation.items = [item]) (unsettled : item.isSettled state.registry = false)
    (computable : (equation.resolved (state.registry.get item.number).kind).isComputable) :
    Ascending start (state.compute number equation item.number) := by
  have move : Move index _ _ :=
    .compute number equation item found waiting single unsettled computable
  obtain ⟨origin, foundOrigin, -, -, items⟩ := origin_of_moves moves found
  have member := List.mem_of_getElem? foundOrigin
  have asked : item ∈ origin.items := items.subset (by simp [single])
  have inside : item.number < state.registry.length :=
    length_registry_of_moves moves ▸ ready.inside origin member item asked
  have open_ := isOpen_of_computable ready (standing_of_moves ready moves) member asked unsettled
    computable
  have isState := resolved_eq_state_iff equation open_.1 open_.2
  have history := history_of_moves ready (moves.tail move)
  -- The new place is the free one, which is above all earlier ones and below the next free one.
  have place_new : ((state.compute number equation item.number).registry.get item.number).place =
      some (freePlace state.counters (start.registry.get item.number).kind) := by
    rw [get_compute_self inside, ← freePlace_congr isState]
    rfl
  have free_new : freePlace state.counters (start.registry.get item.number).kind <
      freePlace (state.compute number equation item.number).counters
        (start.registry.get item.number).kind := by
    rw [← freePlace_congr isState, ← freePlace_congr isState]
    simp only [freePlace, Elimination.compute, advance]
    split <;> omega
  have order_new : (state.compute number equation item.number).orderOf number =
      some state.counters.order := by
    simp [orderOf, Elimination.compute, OrderedEquation.ordered,
      (List.getElem?_eq_some_iff.mp found).1]
  refine ⟨?_, ?_⟩
  · intro record other named
    by_cases same : item.number = record
    · subst same
      exact ⟨_, place_new, free_new⟩
    · rw [get_compute_of_ne same] at named ⊢
      obtain ⟨place, isPlace, below⟩ := ascending.bound record other named
      exact ⟨place, isPlace, Nat.lt_of_lt_of_le below (freePlace_le_of_move move _)⟩
  · intro record other numberRecord numberOther order orderOther place placeOther named namedOther
      ordered orderedOther isPlace isPlaceOther sameArray before
    by_cases same : item.number = record
    · subst same
      rw [get_compute_self inside, Option.some.injEq] at named
      subst named
      obtain rfl := Option.some.inj (order_new.symm.trans ordered)
      have bound := history.order_lt (moves.tail move) orderedOther
      simp only [Elimination.compute, advance] at bound
      omega
    · rw [get_compute_of_ne same] at named isPlace
      by_cases sameOther : item.number = other
      · subst sameOther
        obtain rfl := Option.some.inj (place_new.symm.trans isPlaceOther)
        obtain ⟨earlier, isEarlier, below⟩ := ascending.bound record numberRecord named
        obtain rfl := Option.some.inj (isPlace.symm.trans isEarlier)
        rwa [freePlace_congr sameArray] at below
      · rw [get_compute_of_ne sameOther] at namedOther isPlaceOther
        obtain ⟨_, _, earlier, foundEarlier, orderedEarlier, -⟩ :=
          exists_computing ready moves named
        obtain ⟨_, _, earlierOther, foundEarlierOther, orderedEarlierOther, -⟩ :=
          exists_computing ready moves namedOther
        have known := orderOf_eq_some.mpr ⟨_, foundEarlier, orderedEarlier⟩
        have knownOther := orderOf_eq_some.mpr ⟨_, foundEarlierOther, orderedEarlierOther⟩
        obtain rfl := Option.some.inj ((orderOf_of_move move known).symm.trans ordered)
        obtain rfl := Option.some.inj ((orderOf_of_move move knownOther).symm.trans orderedOther)
        exact ascending.ascending record other numberRecord numberOther earlier earlierOther place
          placeOther named namedOther known knownOther isPlace isPlaceOther sameArray before

/-- Among the states, and among all other variables, places grow with orders. -/
theorem ascending_of_moves (ready : Start start)
    (moves : ReflTransGen (Move index) start state) : Ascending start state := by
  induction moves with
  | refl =>
      refine ⟨fun record number named => ?_, fun record other number _ _ _ _ _ named => ?_⟩
      · rw [ready.uncomputed record] at named
        cases named
      · rw [ready.uncomputed record] at named
        cases named
  | tail moves move ih =>
      cases move with
      | mark number =>
          exact ih.of_same (fun _ => place_mark ..) (fun _ => equation_mark ..) rfl fun _ => rfl
      | report number declaration =>
          exact ih.of_same (fun _ => place_report ..) (fun _ => equation_report ..) rfl fun _ => rfl
      | reduce number equation found =>
          exact ih.of_same (fun _ => rfl) (fun _ => rfl) rfl (orderOf_setEquation_reduced found)
      | compute number equation item found waiting single unsettled computable =>
          exact ih.compute ready moves found waiting single unsettled computable

end Elimination

end ComponentModel.Analysis
