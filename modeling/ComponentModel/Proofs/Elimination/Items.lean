import ComponentModel.Analysis.Ordering
import ComponentModel.Proofs.Records
import Mathlib.Data.List.Nodup

/-!
# What equations ask for

An equation refers to the value of a class of variables or to its rate. Both kinds of reference
are items here, so that the two lists of open references that an equation carries are one list of
open items. Elimination takes the settled items off; an equation with a single item left computes
it.
-/

namespace ComponentModel.Analysis

/-- What a reference asks for: the value of the class of a record, or its rate. -/
inductive Item where
  | value (number : Nat)
  | rate (number : Nat)
  deriving Repr, DecidableEq

namespace Item

/-- The record that an item is about. -/
def number : Item → Nat
  | value number => number
  | rate number => number

@[simp] theorem number_value (number : Nat) : (value number).number = number := rfl

@[simp] theorem number_rate (number : Nat) : (rate number).number = number := rfl

/-- Whether an item is available as the records stand. -/
def isSettled (registry : Registry) : Item → Bool
  | value number => (registry.get number).isKnown
  | rate number =>
      (registry.get number).place.isSome || (registry.get number).kind == .integrationVariable

/-- A record with a place settles both of its items. -/
theorem isSettled_of_place {registry : Registry} (item : Item)
    (placed : (registry.get item.number).place.isSome) : item.isSettled registry := by
  cases item <;> simp_all [isSettled, Record.isKnown]

/-- The record of an open item has no place yet. -/
theorem place_eq_none {registry : Registry} {item : Item}
    (unsettled : item.isSettled registry = false) :
    (registry.get item.number).place = none := by
  cases placed : (registry.get item.number).place with
  | none => rfl
  | some place =>
      have settled := isSettled_of_place item (Option.isSome_of_eq_some placed)
      simp [settled] at unsettled

/-- Whether an item is settled depends on the kind and the place of its record alone. -/
theorem isSettled_congr {left right : Registry} {item : Item}
    (sameKind : (left.get item.number).kind = (right.get item.number).kind)
    (samePlace : (left.get item.number).place = (right.get item.number).place) :
    item.isSettled left = item.isSettled right := by
  cases item <;> simp_all [isSettled, Record.isKnown]

/-- What an equation can settle: the value of a class that nothing is known about, or the rate of
a state. -/
def IsOpen (registry : Registry) : Item → Prop
  | value number => (registry.get number).kind = .unknown
  | rate number => (registry.get number).kind = .state

/-- What is open to equations depends on kinds only. -/
theorem IsOpen.congr {left right : Registry} {item : Item} (open_ : item.IsOpen left)
    (same : ∀ number, (left.get number).kind = (right.get number).kind) : item.IsOpen right := by
  cases item with
  | value number => exact (same number).symm.trans open_
  | rate number => exact (same number).symm.trans open_

/-- At most one of the items of a record is open to equations. -/
theorem eq_of_isOpen {registry : Registry} {item other : Item} (open_ : item.IsOpen registry)
    (openOther : other.IsOpen registry) (same : item.number = other.number) : item = other := by
  cases item with
  | value number =>
      cases other with
      | value _ => exact congrArg value same
      | rate _ =>
          obtain rfl : number = _ := same
          cases open_.symm.trans openOther
  | rate number =>
      cases other with
      | rate _ => exact congrArg rate same
      | value _ =>
          obtain rfl : number = _ := same
          cases open_.symm.trans openOther

/-- What is open to equations is not available as long as its record has no place. -/
theorem isSettled_of_isOpen {registry : Registry} {item : Item} (open_ : item.IsOpen registry)
    (unplaced : (registry.get item.number).place = none) : item.isSettled registry = false := by
  cases item with
  | value number =>
      have kind : (registry.get number).kind = .unknown := open_
      simp_all [isSettled, Record.isKnown, Kind.isKnown]
  | rate number =>
      have kind : (registry.get number).kind = .state := open_
      simp_all [isSettled]

end Item

namespace OrderedEquation

/-- The open items of an equation, the plain ones first. -/
def items (equation : OrderedEquation) : List Item :=
  equation.plain.map .value ++ equation.differentiated.map .rate

variable {equation : OrderedEquation} {registry : Registry}

@[simp] theorem value_mem_items {number : Nat} :
    .value number ∈ equation.items ↔ number ∈ equation.plain := by
  simp [items]

@[simp] theorem rate_mem_items {number : Nat} :
    .rate number ∈ equation.items ↔ number ∈ equation.differentiated := by
  simp [items]

/-- No item is listed twice, as long as neither list of references repeats one. -/
theorem items_nodup (plain : equation.plain.Nodup)
    (differentiated : equation.differentiated.Nodup) : equation.items.Nodup := by
  apply List.Nodup.append
  · exact plain.map fun _ _ equal => Item.value.inj equal
  · exact differentiated.map fun _ _ equal => Item.rate.inj equal
  · intro item isValue isRate
    simp only [List.mem_map] at isValue isRate
    obtain ⟨_, _, rfl⟩ := isValue
    obtain ⟨_, _, equal⟩ := isRate
    cases equal

/-- Elimination takes the settled items off and keeps the others in order. -/
theorem items_eliminate (rateBased : Nat → Bool) :
    (equation.eliminate registry rateBased).items =
      equation.items.filter fun item => !item.isSettled registry := by
  simp only [items, eliminate, List.filter_append, List.filter_map]
  congr 2
  apply List.filter_congr
  intro number membership
  simp only [Item.isSettled, Function.comp]
  cases (registry.get number).place <;> simp [bne]

/-- An equation has a single open reference exactly if it has a single open item. -/
theorem single?_eq_some {number : Nat} :
    equation.single? = some number ↔ ∃ item, equation.items = [item] ∧ item.number = number := by
  constructor
  · intro single
    unfold single? at single
    split at single
    case h_1 only plain differentiated =>
      exact ⟨.value only, by simp [items, plain, differentiated], Option.some.inj single⟩
    case h_2 only plain differentiated =>
      exact ⟨.rate only, by simp [items, plain, differentiated], Option.some.inj single⟩
    case h_3 => cases single
  · rintro ⟨item, single, rfl⟩
    rw [items, List.append_eq_singleton_iff] at single
    unfold single?
    rcases single with ⟨noPlain, oneRate⟩ | ⟨oneValue, noRate⟩
    · obtain ⟨number, differentiated, rfl⟩ := List.map_eq_singleton_iff.mp oneRate
      rw [List.map_eq_nil_iff.mp noPlain, differentiated]
      rfl
    · obtain ⟨number, plain, rfl⟩ := List.map_eq_singleton_iff.mp oneValue
      rw [List.map_eq_nil_iff.mp noRate, plain]
      rfl

end OrderedEquation

end ComponentModel.Analysis
