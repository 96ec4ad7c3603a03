import ComponentModel.Proofs.Elimination.History

/-!
# The closure that elimination computes

What a system of equations determines can be said without any passes: some items are given, and an
equation determines an item once it has determined all others that it refers to. This module
proves that an elimination settles exactly the least set of items closed under this rule. That
everything settled belongs to the set follows from the history of the elimination; that nothing
is missing follows from its last pass, in which no equation was left with a single open item.
-/

namespace ComponentModel.Analysis

/-- The least set of items that contains the values of the integration variable, of states and of
constants and the rate of the integration variable, and with all other items of an equation also
the last one, if that is open to equations. -/
inductive Settled (registry : Registry) (equations : List OrderedEquation) : Item → Prop
  | integrationVariable (number : Nat)
      (given : (registry.get number).kind = .integrationVariable) :
      Settled registry equations (.value number)
  | state (number : Nat) (given : (registry.get number).kind = .state) :
      Settled registry equations (.value number)
  | constant (number : Nat) (given : (registry.get number).kind = .constant) :
      Settled registry equations (.value number)
  | integrationRate (number : Nat)
      (given : (registry.get number).kind = .integrationVariable) :
      Settled registry equations (.rate number)
  | equation (equation : OrderedEquation) (item : Item) (membership : equation ∈ equations)
      (asked : item ∈ equation.items) (open_ : item.IsOpen registry)
      (others : ∀ other ∈ equation.items, other ≠ item → Settled registry equations other) :
      Settled registry equations item

/-- The closure looks at the kinds of the records only. -/
theorem Settled.congr {left right : Registry} {equations : List OrderedEquation} {item : Item}
    (same : ∀ number, (left.get number).kind = (right.get number).kind)
    (settled : Settled left equations item) : Settled right equations item := by
  induction settled with
  | integrationVariable number given => exact .integrationVariable number (same number ▸ given)
  | state number given => exact .state number (same number ▸ given)
  | constant number given => exact .constant number (same number ▸ given)
  | integrationRate number given => exact .integrationRate number (same number ▸ given)
  | equation equation item membership asked open_ others ih =>
      exact .equation equation item membership asked (open_.congr same) ih

namespace Elimination

open Relation (ReflTransGen)

variable {index : Index} {start state final : Elimination}

/-- What is open to equations has no place before the first pass. -/
theorem Start.unplaced_of_isOpen (ready : Start start) {item : Item}
    (open_ : item.IsOpen start.registry) : (start.registry.get item.number).place = none := by
  cases place : (start.registry.get item.number).place with
  | none => rfl
  | some position =>
      have constant := (ready.placed item.number).mp (by simp [place])
      cases item with
      | value number => cases constant.symm.trans open_
      | rate number => cases constant.symm.trans open_

/-! ## Nothing else is settled -/

/-- What an equation asks for and is available from the start is given. -/
theorem Start.settled (ready : Start start) {equation : OrderedEquation}
    (membership : equation ∈ start.equations) {item : Item} (asked : item ∈ equation.items)
    (available : item.isSettled start.registry) :
    Settled start.registry start.equations item := by
  have initial := ready.initial item.number
  have placed := ready.placed item.number
  cases item with
  | value number =>
      cases kind : (start.registry.get number).kind with
      | integrationVariable => exact .integrationVariable number kind
      | state => exact .state number kind
      | constant => exact .constant number kind
      | unknown | shouldBeState =>
          simp_all [Item.isSettled, Record.isKnown, Kind.isKnown]
      | computedTrueConstant | computedVariableBasedConstant | algebraic | overconstrained =>
          simp [kind, Kind.isInitial] at initial
  | rate number =>
      have differentiable := ready.differentiable equation membership number
        (OrderedEquation.rate_mem_items.mp asked)
      refine .integrationRate number ?_
      cases place : (start.registry.get number).place with
      | none => simpa [Item.isSettled, place] using available
      | some position => exact absurd (placed.mp (by simp [place])) differentiable.2

/-- Two open items of one record are the same, if the record started as it must for both. -/
theorem Start.item_eq (ready : Start start) {equation : OrderedEquation}
    (membership : equation ∈ start.equations) {item other : Item} (asked : other ∈ equation.items)
    (unsettled : other.isSettled start.registry = false) (open_ : item.IsOpen start.registry)
    (same : other.number = item.number) : other = item := by
  cases other with
  | value number =>
      cases item with
      | value _ => exact congrArg Item.value same
      | rate state =>
          obtain rfl : number = state := same
          have kind : (start.registry.get number).kind = .state := open_
          simp [Item.isSettled, Record.isKnown, kind, Kind.isKnown] at unsettled
  | rate number =>
      cases item with
      | rate _ => exact congrArg Item.rate same
      | value unknown =>
          obtain rfl : number = unknown := same
          exact absurd open_ (ready.differentiable equation membership number
            (OrderedEquation.rate_mem_items.mp asked)).1

/-- The item that an equation computes belongs to the closure. The induction is on the order of
the equation: whatever it refers to besides has been computed with a smaller order. -/
theorem settled_of_ordered (ready : Start start)
    (moves : ReflTransGen (Move index) start state) {order : Nat} :
    ∀ {number : Nat} {equation : OrderedEquation} {item : Item},
      state.equations[number]? = some equation → equation.order = some order →
      equation.items = [item] → Settled start.registry start.equations item := by
  have history := history_of_moves ready moves
  induction order using Nat.strongRecOn with
  | ind order ih =>
      intro number equation item found ordered single
      obtain ⟨origin, foundOrigin, -, -, items⟩ := origin_of_moves moves found
      have membership := List.mem_of_getElem? foundOrigin
      have progress := history.progress number origin equation foundOrigin found
      obtain ⟨-, computed, single', -, -, open_⟩ := progress.ordered order ordered
      obtain rfl : item = computed := by simpa [single] using single'
      refine .equation origin item membership (items.subset (by simp [single])) open_ ?_
      intro other asked different
      cases available : other.isSettled start.registry with
      | true => exact ready.settled membership asked available
      | false =>
          have before := progress.removed other asked (by simpa [single] using different)
          rcases before with given | ⟨computing, smaller, named, orderedOther, below⟩
          · simp [given] at available
          · obtain ⟨source, settled, earlier, foundSource, sourceOrder, singleSource, same, -,
              openSource⟩ := exists_computing ready moves named
            obtain rfl : other = settled :=
              ready.item_eq membership asked available openSource same.symm
            obtain ⟨again, foundAgain, againOrder⟩ := orderOf_eq_some.mp orderedOther
            obtain rfl := Option.some.inj (foundSource.symm.trans foundAgain)
            obtain rfl := Option.some.inj (sourceOrder.symm.trans againOrder)
            exact ih earlier (below order ordered) foundSource sourceOrder singleSource

/-- What an equation asks for belongs to the closure as soon as it is settled. -/
theorem settled_of_isSettled (ready : Start start) (moves : ReflTransGen (Move index) start state)
    {equation : OrderedEquation} (membership : equation ∈ start.equations) {item : Item}
    (asked : item ∈ equation.items) (settled : item.isSettled state.registry) :
    Settled start.registry start.equations item := by
  have before : SettledBefore start state none item :=
    (history_of_moves ready moves).settledBefore ready moves (by simp) settled
  cases available : item.isSettled start.registry with
  | true => exact ready.settled membership asked available
  | false =>
      rcases before with given | ⟨computing, order, named, -, -⟩
      · simp [given] at available
      · obtain ⟨source, computed, earlier, found, ordered, single, same, -, open_⟩ :=
          exists_computing ready moves named
        obtain rfl := ready.item_eq membership asked available open_ same.symm
        exact settled_of_ordered ready moves found ordered single

/-! ## Nothing is missing -/

/-- Marking a class that has a place settles nothing and opens nothing. -/
theorem isSettled_mark {number : Nat} (placed : (state.registry.get number).place.isSome)
    (item : Item) :
    item.isSettled (state.mark number).registry = item.isSettled state.registry := by
  by_cases same : number = item.number
  · subst same
    have after : ((state.mark item.number).registry.get item.number).place.isSome := by
      rw [place_mark]
      exact placed
    rw [Item.isSettled_of_place item placed, Item.isSettled_of_place item after]
  · exact Item.isSettled_congr (by rw [mark, Registry.get_change_of_ne _ same])
      (by rw [mark, Registry.get_change_of_ne _ same])

/-- A look that orders no equation settles nothing and opens nothing. -/
theorem isSettled_of_idle_step {number : Nat} (idle : (state.step index number).2 = false)
    (item : Item) :
    item.isSettled (state.step index number).1.registry = item.isSettled state.registry := by
  have look : Look index state number (state.step index number) := look_step
  generalize state.step index number = outcome at look idle
  cases look with
  | idle => rfl
  | twice equation other found waiting single placed => exact isSettled_mark placed item
  | several => rfl
  | refused => exact Item.isSettled_congr (kind_report ..) (place_report ..)
  | computed => cases idle

theorem isSettled_of_idle_pass {numbers : List Nat} (idle : (state.pass index numbers).2 = false)
    (item : Item) :
    item.isSettled (state.pass index numbers).1.registry = item.isSettled state.registry := by
  induction numbers generalizing state with
  | nil => rfl
  | cons first rest ih =>
      rw [pass_cons, Bool.or_eq_false_iff] at idle
      exact (ih idle.2).trans (isSettled_of_idle_step idle.1 item)

/-- In a pass that orders no equation, every equation is looked at in vain while the same items
are settled as at the end. -/
theorem exists_idle_look {numbers : List Nat} (idle : (state.pass index numbers).2 = false)
    {number : Nat} (membership : number ∈ numbers) :
    ∃ middle, ReflTransGen (Move index) state middle ∧
      ReflTransGen (Move index) middle (state.pass index numbers).1 ∧
      (middle.step index number).2 = false ∧
      ∀ item : Item, item.isSettled middle.registry =
        item.isSettled (state.pass index numbers).1.registry := by
  induction numbers generalizing state with
  | nil => cases membership
  | cons first rest ih =>
      rw [pass_cons, Bool.or_eq_false_iff] at idle
      rcases List.mem_cons.mp membership with rfl | later
      · refine ⟨state, .refl, ?_, idle.1, fun item => ?_⟩
        · exact (moves_step index state number).trans (moves_pass rest)
        · exact ((isSettled_of_idle_pass idle.2 item).trans
            (isSettled_of_idle_step idle.1 item)).symm
      · obtain ⟨middle, before, after, vain, same⟩ := ih idle.2 later
        exact ⟨middle, (moves_step index state first).trans before, after, vain, same⟩

/-- What is available before an elimination stays so. -/
theorem isSettled_of_moves (ready : Start start) (moves : ReflTransGen (Move index) start state)
    {item : Item} (available : item.isSettled start.registry) :
    item.isSettled state.registry := by
  cases standing_of_moves ready moves item.number with
  | untouched kind place _ => exact Item.isSettled_congr kind place ▸ available
  | twice given _ place _ =>
      refine Item.isSettled_of_place item ?_
      rw [place]
      exact (ready.placed item.number).mpr given
  | value _ _ place _ => exact Item.isSettled_of_place item place
  | rate _ _ place _ => exact Item.isSettled_of_place item place

/-- What has been settled before a limit is available. -/
theorem SettledBefore.isSettled (ready : Start start)
    (moves : ReflTransGen (Move index) start state) {limit : Option Nat} {item : Item}
    (settled : SettledBefore start state limit item) : item.isSettled state.registry := by
  rcases settled with given | ⟨number, order, named, -, -⟩
  · exact isSettled_of_moves ready moves given
  · refine Item.isSettled_of_place item ?_
    cases standing_of_moves ready moves item.number with
    | untouched _ _ unnamed => simp [unnamed] at named
    | twice _ _ _ unnamed => simp [unnamed] at named
    | value _ _ place _ => exact place
    | rate _ _ place _ => exact place

/-- An equation with an order leaves none of its items open. -/
theorem isSettled_of_ordered (ready : Start start)
    (moves : ReflTransGen (Move index) start state) {number : Nat}
    {origin equation : OrderedEquation} (foundOrigin : start.equations[number]? = some origin)
    (found : state.equations[number]? = some equation) (done : equation.order.isSome) {item : Item}
    (asked : item ∈ origin.items) : item.isSettled state.registry := by
  have progress := (history_of_moves ready moves).progress number origin equation foundOrigin found
  obtain ⟨order, ordered⟩ := Option.isSome_iff_exists.mp done
  obtain ⟨-, computed, single, -, named, -⟩ := progress.ordered order ordered
  by_cases kept : item ∈ equation.items
  · obtain rfl : item = computed := by simpa [single] using kept
    have settled : SettledBefore start state none item :=
      Or.inr ⟨number, order, named, orderOf_eq_some.mpr ⟨equation, found, ordered⟩, by simp⟩
    exact settled.isSettled ready moves
  · exact (progress.removed item asked kept).isSettled ready moves

/-- An equation can settle what is open to equations. -/
theorem isComputable_of_isOpen {registry : Registry} {equation : OrderedEquation} {item : Item}
    (open_ : item.IsOpen registry) :
    (equation.resolved (registry.get item.number).kind).isComputable := by
  cases item with
  | value number =>
      rw [Item.number_value, show (registry.get number).kind = .unknown from open_]
      simp only [OrderedEquation.resolved, Kind.resolvedBy]
      split
      · rfl
      · split <;> rfl
  | rate number =>
      rw [Item.number_rate, show (registry.get number).kind = .state from open_]
      rfl

/-- An equation with a single open item that it can settle is not looked at in vain. -/
theorem busy_of_single_open (ready : Start start)
    (moves : ReflTransGen (Move index) start state) {number : Nat}
    {origin equation : OrderedEquation} (foundOrigin : start.equations[number]? = some origin)
    (found : state.equations[number]? = some equation) (waiting : equation.order = none)
    {item : Item} (asked : item ∈ origin.items) (open_ : item.IsOpen start.registry)
    (unsettled : item.isSettled state.registry = false)
    (others : ∀ other ∈ origin.items, other ≠ item → other.isSettled state.registry) :
    (state.step index number).2 = true := by
  have progress := (history_of_moves ready moves).progress number origin equation foundOrigin found
  have kept : item ∈ equation.items := by
    by_contra gone
    have settled := (progress.removed item asked gone).isSettled ready moves
    simp [settled] at unsettled
  obtain ⟨source, foundSource, -, -, sublist⟩ := origin_of_moves moves found
  obtain rfl : origin = source := Option.some.inj (foundOrigin.symm.trans foundSource)
  have single : (state.reduced number equation).items = [item] := by
    have nodup := (ready.items_nodup origin (List.mem_of_getElem? foundOrigin)).sublist sublist
    have onlyOpen : ∀ other ∈ equation.items,
        (!other.isSettled state.registry) = (other == item) := by
      intro other membership
      by_cases same : other = item
      · simp [same, unsettled]
      · simp [same, others other (sublist.subset membership) same]
    rw [reduced, OrderedEquation.items_reduce, List.filter_congr onlyOpen, List.filter_beq,
      List.count_eq_one_of_mem nodup kept, List.replicate_one]
  have standing := (standing_of_moves ready moves item.number).of_unplaced
    (fun given => (ready.placed item.number).mpr given) (Item.place_eq_none unsettled)
  have look : Look index state number (state.step index number) := look_step
  generalize state.step index number = outcome at look
  cases look with
  | idle done =>
      have impossible := done equation found
      simp [waiting] at impossible
  | twice equation' other found' waiting' single' placed =>
      obtain rfl := Option.some.inj (found.symm.trans found')
      obtain rfl : item = other := by simpa [single'] using kept
      simp [Item.isSettled_of_place item placed] at unsettled
  | several equation' found' waiting' several =>
      obtain rfl := Option.some.inj (found.symm.trans found')
      exact absurd single (several item)
  | refused equation' other declaration found' waiting' single' same refused =>
      obtain rfl := Option.some.inj (found.symm.trans found')
      obtain rfl : item = other := by simpa [single] using single'
      rw [standing.1] at refused
      simp [isComputable_of_isOpen open_] at refused
  | computed => rfl

/-- What belongs to the closure has been settled when a pass orders no equation any more. -/
theorem isSettled_of_settled (ready : Start start)
    (moves : ReflTransGen (Move index) start state)
    (idle : (state.pass index state.numbers).2 = false) {item : Item}
    (settled : Settled start.registry start.equations item) :
    item.isSettled (state.pass index state.numbers).1.registry := by
  have toFinal := moves.trans (moves_pass state.numbers)
  induction settled with
  | integrationVariable number given =>
      exact isSettled_of_moves ready toFinal
        (by simp [Item.isSettled, Record.isKnown, given, Kind.isKnown])
  | state number given =>
      exact isSettled_of_moves ready toFinal
        (by simp [Item.isSettled, Record.isKnown, given, Kind.isKnown])
  | constant number given =>
      exact isSettled_of_moves ready toFinal
        (by simp [Item.isSettled, Record.isKnown, given, Kind.isKnown])
  | integrationRate number given =>
      exact isSettled_of_moves ready toFinal (by simp [Item.isSettled, given])
  | equation origin item membership asked open_ others ih =>
      obtain ⟨number, inside, rfl⟩ := List.getElem_of_mem membership
      have foundOrigin := List.getElem?_eq_getElem inside
      have length := length_equations_of_moves moves
      have listed : number ∈ state.numbers := by simp [numbers, length, inside]
      obtain ⟨middle, before, after, vain, same⟩ := exists_idle_look idle listed
      have toMiddle := moves.trans before
      have insideMiddle : number < middle.equations.length := by
        rw [length_equations_of_moves toMiddle]
        exact inside
      have found := List.getElem?_eq_getElem insideMiddle
      cases unsettled : item.isSettled (state.pass index state.numbers).1.registry with
      | true => rfl
      | false =>
          rw [← same item] at unsettled
          cases waiting : middle.equations[number].order with
          | some order =>
              have available := isSettled_of_ordered ready toMiddle foundOrigin found
                (by simp [waiting]) asked
              simp [available] at unsettled
          | none =>
              have busy := busy_of_single_open ready toMiddle foundOrigin found waiting asked open_
                unsettled fun other membership different => by
                  rw [same other]
                  exact ih other membership different
              simp [busy] at vain


/-! ## What a run comes to -/

theorem Loop.isSettled (ready : Start start) (loop : Loop index start final) {item : Item}
    (settled : Settled start.registry start.equations item) : item.isSettled final.registry := by
  obtain ⟨last, moves, idle, rfl⟩ := loop.exists_last
  exact isSettled_of_settled ready moves idle settled

/-- An open item is not left as the only unsettled one of an equation. -/
theorem Loop.exists_unsettled (ready : Start start) (loop : Loop index start final)
    (moves : ReflTransGen (Move index) start final) {equation : OrderedEquation}
    (membership : equation ∈ start.equations) {item : Item} (asked : item ∈ equation.items)
    (open_ : item.IsOpen start.registry) (unsettled : item.isSettled final.registry = false) :
    ∃ other ∈ equation.items, other ≠ item ∧ other.isSettled final.registry = false := by
  by_contra alone
  have settled : Settled start.registry start.equations item := by
    refine .equation equation item membership asked open_ fun other askedOther different => ?_
    refine settled_of_isSettled ready moves membership askedOther ?_
    by_contra unsettledOther
    exact alone ⟨other, askedOther, different, by simpa using unsettledOther⟩
  simp [loop.isSettled ready settled] at unsettled

/-- The record of an item that is open to equations gets a place exactly if the item belongs to
the closure. -/
theorem placed_iff_settled (ready : Start start) (loop : Loop index start final) {item : Item}
    (open_ : item.IsOpen start.registry) :
    (final.registry.get item.number).place.isSome ↔
      Settled start.registry start.equations item := by
  obtain ⟨last, moves, idle, rfl⟩ := loop.exists_last
  have toFinal := moves.trans (moves_pass last.numbers)
  have unplaced := ready.unplaced_of_isOpen open_
  have standing := standing_of_moves ready toFinal item.number
  constructor
  · intro placed
    have named : ((last.pass index last.numbers).1.registry.get item.number).equation.isSome := by
      cases standing with
      | untouched _ place _ => simp [place, unplaced] at placed
      | twice _ _ place _ => simp [place, unplaced] at placed
      | value _ _ _ named => exact named
      | rate _ _ _ named => exact named
    obtain ⟨computing, named⟩ := Option.isSome_iff_exists.mp named
    obtain ⟨equation, computed, order, found, ordered, single, same, -, openComputed⟩ :=
      exists_computing ready toFinal named
    obtain rfl := Item.eq_of_isOpen openComputed open_ same
    exact settled_of_ordered ready toFinal found ordered single
  · intro settled
    have available := isSettled_of_settled ready moves idle settled
    cases standing with
    | untouched kind place _ =>
        rw [Item.isSettled_congr kind place, Item.isSettled_of_isOpen open_ unplaced] at available
        cases available
    | twice given =>
        have placed := (ready.placed item.number).mpr given
        simp [unplaced] at placed
    | value _ _ place _ => exact place
    | rate _ _ place _ => exact place

/-- The class of a record has a place, and an equation computes it. -/
def Computes (state : Elimination) (record : Nat) : Prop :=
  (state.registry.get record).place.isSome ∧
    ∃ number equation, (state.registry.get record).equation = some number ∧
      state.equations[number]? = some equation ∧ equation.computes = some record

/-- A record that started open has a place exactly if an equation computes it. -/
theorem placed_iff_computes (ready : Start start)
    (moves : ReflTransGen (Move index) start final) {item : Item}
    (open_ : item.IsOpen start.registry) :
    (final.registry.get item.number).place.isSome ↔ final.Computes item.number := by
  constructor
  · intro placed
    have unplaced := ready.unplaced_of_isOpen open_
    have named : (final.registry.get item.number).equation.isSome := by
      cases standing_of_moves ready moves item.number with
      | untouched _ place _ => simp [place, unplaced] at placed
      | twice _ _ place _ => simp [place, unplaced] at placed
      | value _ _ _ named => exact named
      | rate _ _ _ named => exact named
    obtain ⟨number, named⟩ := Option.isSome_iff_exists.mp named
    obtain ⟨equation, _, _, found, _, _, _, computes, _⟩ := exists_computing ready moves named
    exact ⟨placed, number, equation, named, found, computes⟩
  · intro computes
    exact computes.1

end Elimination

end ComponentModel.Analysis
