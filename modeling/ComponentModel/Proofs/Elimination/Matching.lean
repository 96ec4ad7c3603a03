import ComponentModel.Proofs.Elimination.Closure

/-!
# Which equation computes which item

An elimination that gives an order to all equations matches each of them with one of its items.
The orders leave no choice: whatever else an equation refers to has been settled by equations with
smaller orders. Any other elimination of the same equations, in whatever sequence it looks at them,
therefore finds the same matching, and it marks no class as constrained twice.
-/

namespace ComponentModel.Analysis

/-- The closure of equations belongs to that of more equations. -/
theorem Settled.mono {registry : Registry} {smaller larger : List OrderedEquation} {item : Item}
    (among : smaller ⊆ larger) (settled : Settled registry smaller item) :
    Settled registry larger item := by
  induction settled with
  | integrationVariable number given => exact .integrationVariable number given
  | state number given => exact .state number given
  | constant number given => exact .constant number given
  | integrationRate number given => exact .integrationRate number given
  | equation equation item membership asked open_ others ih =>
      exact .equation equation item (among membership) asked open_ ih

namespace Elimination

open Relation (ReflTransGen)

variable {index : Index} {start state next : Elimination} {number order : Nat}
  {source equation : OrderedEquation} {item : Item}

/-- All equations have been given an order. -/
def IsComplete (state : Elimination) : Prop :=
  ∀ equation ∈ state.equations, equation.order.isSome

/-- An equation that has been given an order, and the item that it computes. -/
structure Computing (start state : Elimination) (number order : Nat)
    (source equation : OrderedEquation) (item : Item) : Prop where
  foundSource : start.equations[number]? = some source
  found : state.equations[number]? = some equation
  order : equation.order = some order
  single : equation.items = [item]
  computes : equation.computes = some item.number
  named : (state.registry.get item.number).equation = some number
  asked : item ∈ source.items
  open_ : item.IsOpen start.registry

/-! ## Orders and items -/

theorem exists_computing_of_order (ready : Start start)
    (moves : ReflTransGen (Move index) start state)
    (found : state.equations[number]? = some equation) (done : equation.order.isSome) :
    ∃ order source item, Computing start state number order source equation item := by
  obtain ⟨order, ordered⟩ := Option.isSome_iff_exists.mp done
  obtain ⟨source, foundSource, -, -, items⟩ := origin_of_moves moves found
  have progress := (history_of_moves ready moves).progress number source equation foundSource found
  obtain ⟨-, item, single, computes, named, open_⟩ := progress.ordered order ordered
  exact ⟨order, source, item, foundSource, found, ordered, single, computes, named,
    items.subset (by simp [single]), open_⟩

/-- In a complete elimination every equation is computing. -/
theorem IsComplete.exists_computing (complete : state.IsComplete) (ready : Start start)
    (moves : ReflTransGen (Move index) start state)
    (foundSource : start.equations[number]? = some source) :
    ∃ order equation item, Computing start state number order source equation item := by
  have inside : number < state.equations.length := by
    rw [length_equations_of_moves moves]
    exact (List.getElem?_eq_some_iff.mp foundSource).1
  have found := List.getElem?_eq_getElem inside
  obtain ⟨order, source', item, computing⟩ :=
    exists_computing_of_order ready moves found (complete _ (List.getElem_mem inside))
  obtain rfl := Option.some.inj (foundSource.symm.trans computing.foundSource)
  exact ⟨order, _, item, computing⟩

namespace Computing

/-- The equation that settles an item is the only one that computes it. -/
theorem number_eq {other orderOther : Nat} {sourceOther equationOther : OrderedEquation}
    (computing : Computing start state number order source equation item)
    (computingOther : Computing start state other orderOther sourceOther equationOther item) :
    number = other :=
  Option.some.inj (computing.named.symm.trans computingOther.named)

theorem order_eq {orderOther : Nat} {sourceOther equationOther : OrderedEquation} {other : Item}
    (computing : Computing start state number order source equation item)
    (computingOther : Computing start state number orderOther sourceOther equationOther other) :
    order = orderOther := by
  obtain rfl := Option.some.inj (computing.found.symm.trans computingOther.found)
  exact Option.some.inj (computing.order.symm.trans computingOther.order)

theorem source_eq {orderOther : Nat} {sourceOther equationOther : OrderedEquation} {other : Item}
    (computing : Computing start state number order source equation item)
    (computingOther : Computing start state number orderOther sourceOther equationOther other) :
    source = sourceOther :=
  Option.some.inj (computing.foundSource.symm.trans computingOther.foundSource)

/-- What an equation computes is not available from the start. -/
theorem unsettled (ready : Start start)
    (computing : Computing start state number order source equation item) :
    item.isSettled start.registry = false :=
  Item.isSettled_of_isOpen computing.open_ (ready.unplaced_of_isOpen computing.open_)

/-- Another item of an equation, unless it is available from the start, has been computed with a
smaller order. -/
theorem exists_earlier (ready : Start start) (moves : ReflTransGen (Move index) start state)
    (computing : Computing start state number order source equation item) {other : Item}
    (asked : other ∈ source.items) (different : other ≠ item)
    (unsettled : other.isSettled start.registry = false) :
    ∃ before earlier sourceBefore equationBefore, earlier < order ∧
      Computing start state before earlier sourceBefore equationBefore other := by
  have progress := (history_of_moves ready moves).progress number source equation
    computing.foundSource computing.found
  have gone : other ∉ equation.items := by simpa [computing.single] using different
  rcases progress.removed other asked gone with given | ⟨before, earlier, named, ordered, less⟩
  · simp [given] at unsettled
  · obtain ⟨equationBefore, foundBefore, orderBefore⟩ := orderOf_eq_some.mp ordered
    obtain ⟨earlier', sourceBefore, item', computingBefore⟩ :=
      exists_computing_of_order ready moves foundBefore (Option.isSome_of_eq_some orderBefore)
    obtain rfl := Option.some.inj (orderBefore.symm.trans computingBefore.order)
    obtain ⟨_, _, _, foundAgain, -, singleAgain, same, -, -⟩ :=
      Elimination.exists_computing ready moves named
    obtain rfl := Option.some.inj (foundBefore.symm.trans foundAgain)
    obtain rfl : item' = _ := by simpa using computingBefore.single.symm.trans singleAgain
    obtain rfl := ready.item_eq (List.mem_of_getElem? computing.foundSource) asked unsettled
      computingBefore.open_ same.symm
    exact ⟨before, earlier, sourceBefore, equationBefore,
      less order computing.order, computingBefore⟩

/-- Equal equations compute the same item: of two items, each would have to come first. -/
theorem item_eq (ready : Start start) (moves : ReflTransGen (Move index) start state)
    {other orderOther : Nat} {equationOther : OrderedEquation} {itemOther : Item}
    (computing : Computing start state number order source equation item)
    (computingOther : Computing start state other orderOther source equationOther itemOther) :
    item = itemOther := by
  by_contra different
  obtain ⟨_, _, _, _, first, before⟩ := computing.exists_earlier ready moves computingOther.asked
    (Ne.symm different) (computingOther.unsettled ready)
  obtain ⟨_, _, _, _, second, beforeOther⟩ := computingOther.exists_earlier ready moves
    computing.asked different (computing.unsettled ready)
  obtain rfl := before.number_eq computingOther
  obtain rfl := beforeOther.number_eq computing
  have sameOrder := before.order_eq computingOther
  have sameOther := beforeOther.order_eq computing
  omega

end Computing

/-- No equation occurs twice among equations that are all given an order. -/
theorem IsComplete.nodup (complete : state.IsComplete) (ready : Start start)
    (moves : ReflTransGen (Move index) start state) : start.equations.Nodup := by
  rw [List.nodup_iff_injective_get]
  intro one other same
  obtain ⟨_, _, _, computing⟩ :=
    complete.exists_computing ready moves (List.getElem?_eq_getElem one.isLt)
  obtain ⟨_, _, _, computingOther⟩ :=
    complete.exists_computing ready moves (List.getElem?_eq_getElem other.isLt)
  rw [List.get_eq_getElem, List.get_eq_getElem] at same
  rw [← same] at computingOther
  obtain rfl := computing.item_eq ready moves computingOther
  exact Fin.ext (computing.number_eq computingOther)

/-! ## Other sequences of the same equations -/

/-- The elimination of the same classes by other equations. -/
def withEquations (state : Elimination) (equations : List OrderedEquation) : Elimination :=
  { state with equations }

theorem Start.withEquations (ready : Start start) {equations : List OrderedEquation}
    (among : equations ⊆ start.equations) : Start (start.withEquations equations) where
  initial := ready.initial
  placed := ready.placed
  place_lt := ready.place_lt
  place_injective := ready.place_injective
  uncomputed := ready.uncomputed
  noStates := ready.noStates
  noOrders := ready.noOrders
  untouched := fun equation membership => ready.untouched equation (among membership)
  items_nodup := fun equation membership => ready.items_nodup equation (among membership)
  inside := fun equation membership => ready.inside equation (among membership)
  differentiable := fun equation membership => ready.differentiable equation (among membership)

variable {equations : List OrderedEquation} {final other : Elimination}

/-- Whatever an equation computes among other equations, it computes in a complete elimination. -/
theorem Computing.item_eq_of_complete (ready : Start start)
    (moves : ReflTransGen (Move index) start final) (complete : final.IsComplete)
    (among : equations ⊆ start.equations)
    (movesOther : ReflTransGen (Move index) (start.withEquations equations) other) :
    ∀ {number order source equation item},
      Computing (start.withEquations equations) other number order source equation item →
      ∀ {number' order' equation' item'},
        Computing start final number' order' source equation' item' → item = item' := by
  have readyOther := ready.withEquations among
  intro number order
  -- By induction on the order among the other equations: a different item would have been left to
  -- an earlier equation, which computes its own item by hypothesis.
  induction order using Nat.strongRecOn generalizing number with
  | ind order ih =>
      intro source equation item computing number' order' equation' item' computing'
      by_contra different
      have unsettled := computing'.unsettled ready
      obtain ⟨before, earlier, sourceBefore, equationBefore, less, computingBefore⟩ :=
        computing.exists_earlier readyOther movesOther computing'.asked (Ne.symm different)
          unsettled
      obtain ⟨position, foundSource⟩ := List.mem_iff_getElem?.mp
        (among (List.mem_of_getElem? computingBefore.foundSource))
      obtain ⟨_, _, itemBefore, own⟩ := complete.exists_computing ready moves foundSource
      obtain rfl := ih earlier less computingBefore own
      obtain rfl := own.number_eq computing'
      obtain rfl := own.source_eq computing'
      exact different (computing.item_eq readyOther movesOther computingBefore)

/-- What is open from the start and has been settled is computed by an equation. -/
theorem exists_computing_of_settled (ready : Start start) (loop : Loop index start final)
    (moves : ReflTransGen (Move index) start final) (open_ : item.IsOpen start.registry)
    (settled : Settled start.registry start.equations item) :
    ∃ number order source equation, Computing start final number order source equation item := by
  have placed := (placed_iff_settled ready loop open_).mpr settled
  obtain ⟨-, number, _, named, -, -⟩ := (placed_iff_computes ready moves open_).mp placed
  obtain ⟨equation, named', _, found, ordered, single, same, -, open'⟩ :=
    Elimination.exists_computing ready moves named
  obtain ⟨order, source, item', computing⟩ :=
    exists_computing_of_order ready moves found (Option.isSome_of_eq_some ordered)
  obtain rfl : item' = named' := by simpa using computing.single.symm.trans single
  obtain rfl := Item.eq_of_isOpen open' open_ same
  exact ⟨number, order, source, equation, computing⟩

/-- An elimination that orders all equations does so in whatever sequence they stand. -/
theorem IsComplete.perm (complete : final.IsComplete) (ready : Start start)
    (moves : ReflTransGen (Move index) start final) (same : equations.Perm start.equations)
    (loop : Loop index (start.withEquations equations) other)
    (movesOther : ReflTransGen (Move index) (start.withEquations equations) other) :
    other.IsComplete := by
  have readyOther := ready.withEquations same.subset
  intro equation membership
  obtain ⟨number, found⟩ := List.mem_iff_getElem?.mp membership
  obtain ⟨source, foundSource, -⟩ := origin_of_moves movesOther found
  obtain ⟨position, foundPosition⟩ :=
    List.mem_iff_getElem?.mp (same.subset (List.mem_of_getElem? foundSource))
  obtain ⟨_, _, item, own⟩ := complete.exists_computing ready moves foundPosition
  -- The item that the equation computes in the complete elimination is computed in the other one
  -- as well, and no equation but this one can do so.
  have settled := settled_of_ordered ready moves own.found own.order own.single
  obtain ⟨computer, order, sourceComputer, computing, computes⟩ :=
    exists_computing_of_settled readyOther loop movesOther own.open_ (settled.mono same.symm.subset)
  obtain ⟨_, foundComputer⟩ :=
    List.mem_iff_getElem?.mp (same.subset (List.mem_of_getElem? computes.foundSource))
  obtain ⟨_, _, _, ownComputer⟩ := complete.exists_computing ready moves foundComputer
  obtain rfl := computes.item_eq_of_complete ready moves complete same.subset movesOther ownComputer
  obtain rfl := own.number_eq ownComputer
  obtain rfl := own.source_eq ownComputer
  have nodup : equations.Nodup := same.nodup_iff.mpr (complete.nodup ready moves)
  obtain rfl : computer = number :=
    (List.getElem?_inj (List.getElem?_eq_some_iff.mp computes.foundSource).1 nodup).mp
      (computes.foundSource.trans foundSource.symm)
  obtain rfl := Option.some.inj (found.symm.trans computes.found)
  exact Option.isSome_of_eq_some computes.order

end Elimination

end ComponentModel.Analysis
