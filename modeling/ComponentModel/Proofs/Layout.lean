import ComponentModel.Analysis.Classification
import ComponentModel.Proofs.Records
import Mathlib.Data.List.Basic

/-!
# Laying out variables and equations

A layout gives every record of a model that can be solved an entry, and every entry that is not
the variable of integration a place of its own in one of two arrays. Equations are listed by the
kind and the place of the record that they compute.
-/

namespace ComponentModel.Analysis

namespace VariableLayout

/-- The array in which variables of a type are laid out. The variable of integration is in none. -/
def array (layout : VariableLayout) : VariableType → List AnalysedVariable
  | .integrationVariable => []
  | .state => layout.states
  | .constant | .computedConstant | .algebraic => layout.otherVariables

/-- The entry of the record of a number. -/
structure IsEntry (index : Index) (registry : Registry) (layout : VariableLayout) (number : Nat)
    (found : AnalysedVariable) : Prop where
  type : VariableType.ofKind? (registry.get number).kind = some found.type
  initial : found.initial = index.declaration (registry.get number).initialDeclaration
  declared : found.declared = index.declaration (registry.get number).declaration
  placed : found.type ≠ .integrationVariable → (layout.array found.type)[found.place]? = some found

/-- A layout of some records. -/
structure LaidOut (index : Index) (registry : Registry) (numbers : List Nat)
    (layout : VariableLayout) : Prop where
  entry : ∀ number found, layout.byRecord.lookup number = some found →
    number ∈ numbers ∧ IsEntry index registry layout number found
  complete : ∀ number ∈ numbers, (VariableType.ofKind? (registry.get number).kind).isSome →
    (layout.byRecord.lookup number).isSome
  injective : ∀ one other foundOne foundOther, layout.byRecord.lookup one = some foundOne →
    layout.byRecord.lookup other = some foundOther → foundOne.type ≠ .integrationVariable →
    foundOne.type = foundOther.type → foundOne.place = foundOther.place → one = other

variable {index : Index} {registry : Registry} {numbers : List Nat} {layout : VariableLayout}

theorem laidOut_nil : LaidOut index registry [] ⟨none, [], [], []⟩ :=
  ⟨by simp, by simp, by simp⟩

/-- Laying out a record that has no role changes nothing. -/
theorem add_of_none {number : Nat}
    (none : VariableType.ofKind? (registry.get number).kind = none) :
    add index registry layout number = layout := by
  simp [add, none]

/-- What an array holds, a longer one that starts with it holds in the same place. -/
theorem getElem?_longer {shorter longer : List AnalysedVariable} (extends_ : shorter <+: longer)
    {place : Nat} {found : AnalysedVariable} (holds : shorter[place]? = some found) :
    longer[place]? = some found := by
  obtain ⟨rest, rfl⟩ := extends_
  rw [List.getElem?_append_left (List.getElem?_eq_some_iff.mp holds).1, holds]

/-- What laying out a record with a role adds: an entry at the end of its array. -/
theorem add_of_some (index : Index) (layout : VariableLayout) {number : Nat} {type : VariableType}
    (role : VariableType.ofKind? (registry.get number).kind = some type) :
    ∃ found, found.type = type ∧
      found.initial = index.declaration (registry.get number).initialDeclaration ∧
      found.declared = index.declaration (registry.get number).declaration ∧
      (add index registry layout number).byRecord = (number, found) :: layout.byRecord ∧
      (type ≠ .integrationVariable → found.place = (layout.array type).length ∧
        ((add index registry layout number).array type)[found.place]? = some found) ∧
      ∀ other, layout.array other <+: (add index registry layout number).array other := by
  cases type with
  | integrationVariable =>
      simp only [add, role]
      exact ⟨_, rfl, rfl, rfl, rfl, fun impossible => absurd rfl impossible,
        fun other => by cases other <;> exact List.prefix_rfl⟩
  | state =>
      simp only [add, role]
      refine ⟨_, rfl, rfl, rfl, rfl, fun _ => ⟨rfl, by simp [array]⟩, ?_⟩
      intro other
      cases other <;> first | exact List.prefix_rfl | exact List.prefix_append _ _
  | constant | computedConstant | algebraic =>
      simp only [add, role]
      refine ⟨_, rfl, rfl, rfl, rfl, fun _ => ⟨rfl, by simp [array]⟩, ?_⟩
      intro other
      cases other <;> first | exact List.prefix_rfl | exact List.prefix_append _ _

/-- Laying out a record leaves the entries of all others as they are. -/
theorem lookup_add_of_ne (index : Index) (layout : VariableLayout) {number other : Nat}
    (different : other ≠ number) :
    (add index registry layout number).byRecord.lookup other = layout.byRecord.lookup other := by
  cases role : VariableType.ofKind? (registry.get number).kind with
  | none => rw [add_of_none role]
  | some type =>
      obtain ⟨_, -, -, -, byRecord, -⟩ := add_of_some index layout role
      rw [byRecord, List.lookup_cons, beq_false_of_ne different]

/-- Laying out one more record. -/
theorem LaidOut.add (laidOut : LaidOut index registry numbers layout) {number : Nat}
    (fresh : number ∉ numbers) :
    LaidOut index registry (numbers ++ [number]) (add index registry layout number) := by
  cases role : VariableType.ofKind? (registry.get number).kind with
  | none =>
      rw [add_of_none role]
      refine ⟨?_, ?_, laidOut.injective⟩
      · intro other found equal
        obtain ⟨membership, entry⟩ := laidOut.entry other found equal
        exact ⟨List.mem_append_left _ membership, entry⟩
      · intro other membership hasRole
        rcases List.mem_append.mp membership with earlier | new
        · exact laidOut.complete other earlier hasRole
        · rw [List.mem_singleton.mp new, role] at hasRole
          cases hasRole
  | some type =>
      obtain ⟨added, isType, initial, declared, byRecord, own, kept⟩ :=
        add_of_some index layout role
      have lookup_self : (VariableLayout.add index registry layout number).byRecord.lookup number =
          some added := by
        rw [byRecord, List.lookup_cons_self]
      refine ⟨?_, ?_, ?_⟩
      · intro other found equal
        by_cases same : other = number
        · subst same
          obtain rfl := Option.some.inj (lookup_self.symm.trans equal)
          refine ⟨by simp, isType ▸ role, initial, declared, fun notIntegration => ?_⟩
          rw [isType] at notIntegration ⊢
          exact (own notIntegration).2
        · rw [lookup_add_of_ne index layout same] at equal
          obtain ⟨membership, entry⟩ := laidOut.entry other found equal
          refine ⟨List.mem_append_left _ membership, entry.type, entry.initial, entry.declared, ?_⟩
          exact fun notIntegration => getElem?_longer (kept _) (entry.placed notIntegration)
      · intro other membership hasRole
        by_cases same : other = number
        · rw [same, lookup_self]
          rfl
        · rw [lookup_add_of_ne index layout same]
          refine laidOut.complete other ?_ hasRole
          simpa [same] using membership
      · -- A new entry is behind all earlier ones of its array.
        have apart : ∀ other found, other ≠ number → layout.byRecord.lookup other = some found →
            found.type = type → type ≠ .integrationVariable → found.place ≠ added.place := by
          intro other found _ equal sameType notIntegration samePlace
          have placed := (laidOut.entry other found equal).2.placed (sameType ▸ notIntegration)
          have inside := (List.getElem?_eq_some_iff.mp placed).1
          rw [samePlace, sameType, (own notIntegration).1] at inside
          exact Nat.lt_irrefl _ inside
        intro one other foundOne foundOther equalOne equalOther notIntegration sameType samePlace
        by_cases isNew : one = number
        · subst isNew
          obtain rfl := Option.some.inj (lookup_self.symm.trans equalOne)
          by_cases otherNew : other = one
          · exact otherNew.symm
          · rw [lookup_add_of_ne index layout otherNew] at equalOther
            exact absurd samePlace.symm (apart other foundOther otherNew equalOther
              (sameType.symm.trans isType) (isType ▸ notIntegration))
        · rw [lookup_add_of_ne index layout isNew] at equalOne
          by_cases otherNew : other = number
          · subst otherNew
            obtain rfl := Option.some.inj (lookup_self.symm.trans equalOther)
            have typeOne := sameType.trans isType
            exact absurd samePlace (apart one foundOne isNew equalOne typeOne
              (typeOne ▸ notIntegration))
          · rw [lookup_add_of_ne index layout otherNew] at equalOther
            exact laidOut.injective one other foundOne foundOther equalOne equalOther
              notIntegration sameType samePlace

/-- All records in the order in which they are laid out. -/
def order (registry : Registry) : List Nat :=
  registry.numbers.mergeSort fun one other => layoutOrder (registry.get one) (registry.get other)

theorem nodup_order (registry : Registry) : (order registry).Nodup := by
  unfold order
  rw [(List.mergeSort_perm _ _).nodup_iff]
  exact List.nodup_range

theorem mem_order {registry : Registry} {number : Nat} :
    number ∈ order registry ↔ number < registry.length := by
  unfold order
  rw [(List.mergeSort_perm _ _).mem_iff]
  simp [Registry.numbers]

/-- What holds before the first record and is kept by laying out one more holds of all records. -/
theorem ofRegistry_induction {property : List Nat → VariableLayout → Prop}
    (start : property [] ⟨none, [], [], []⟩)
    (step : ∀ numbers layout number, number ∉ numbers → property numbers layout →
      property (numbers ++ [number]) (VariableLayout.add index registry layout number)) :
    property (order registry) (ofRegistry index registry) := by
  have nodup := nodup_order registry
  unfold ofRegistry
  change property (order registry) ((order registry).foldl _ _)
  generalize order registry = order at nodup
  suffices every : ∀ (front : List Nat) (layout : VariableLayout), (front ++ order).Nodup →
      property front layout →
      property (front ++ order) (order.foldl (VariableLayout.add index registry) layout) from
    every [] _ nodup start
  clear nodup
  induction order with
  | nil =>
      intro front layout _ holds
      simpa using holds
  | cons head rest ih =>
      intro front layout nodup holds
      have fresh : head ∉ front := by
        intro membership
        exact (List.nodup_append.mp nodup).2.2 head membership head List.mem_cons_self rfl
      simpa using ih (front ++ [head]) _ (by simpa using nodup) (step front layout head fresh holds)

/-- All records are laid out. -/
theorem laidOut_ofRegistry (index : Index) (registry : Registry) :
    LaidOut index registry (order registry) (ofRegistry index registry) :=
  ofRegistry_induction laidOut_nil fun _ _ _ fresh laidOut => laidOut.add fresh

end VariableLayout

/-! ## The order of records -/

/-- The place of a record as it is compared, no place coming first. -/
def Record.placeRank (record : Record) : Nat :=
  match record.place with
  | none => 0
  | some place => place + 1

theorem Kind.rank_injective {one other : Kind} (same : one.rank = other.rank) : one = other := by
  cases one <;> cases other <;> first | rfl | cases same

/-- Records are laid out by the ranks of their kinds and by their places. -/
theorem layoutOrder_iff {one other : Record} :
    layoutOrder one other ↔ one.kind.rank < other.kind.rank ∨
      one.kind = other.kind ∧ one.placeRank ≤ other.placeRank := by
  unfold layoutOrder Record.placeRank
  by_cases same : one.kind = other.kind
  · simp only [same, beq_self_eq_true, if_true, Nat.lt_irrefl, true_and, false_or]
    cases one.place <;> cases other.place <;> simp
  · have different : one.kind.rank ≠ other.kind.rank := fun equal =>
      same (Kind.rank_injective equal)
    simp only [same, beq_iff_eq, if_false, decide_eq_true_eq, false_and, or_false]
    omega

theorem layoutOrder_trans {one two three : Record} (first : layoutOrder one two)
    (second : layoutOrder two three) : layoutOrder one three := by
  rw [layoutOrder_iff] at *
  rcases first with lower | ⟨same, le⟩
  · rcases second with lower' | ⟨same', -⟩
    · exact Or.inl (Nat.lt_trans lower lower')
    · exact Or.inl (same' ▸ lower)
  · rcases second with lower' | ⟨same', le'⟩
    · exact Or.inl (same ▸ lower')
    · exact Or.inr ⟨same.trans same', Nat.le_trans le le'⟩

theorem layoutOrder_total (one other : Record) :
    layoutOrder one other || layoutOrder other one := by
  rw [Bool.or_eq_true, layoutOrder_iff, layoutOrder_iff]
  by_cases same : one.kind = other.kind
  · rcases Nat.le_total one.placeRank other.placeRank with le | le
    · exact Or.inl (Or.inr ⟨same, le⟩)
    · exact Or.inr (Or.inr ⟨same.symm, le⟩)
  · have different : one.kind.rank ≠ other.kind.rank := fun equal =>
      same (Kind.rank_injective equal)
    rcases Nat.lt_or_gt_of_ne different with lower | higher
    · exact Or.inl (Or.inl lower)
    · exact Or.inr (Or.inl higher)

/-- Records are laid out by their kinds. -/
theorem VariableLayout.pairwise_order (registry : Registry) :
    (order registry).Pairwise fun one other =>
      layoutOrder (registry.get one) (registry.get other) :=
  @List.pairwise_mergeSort _ (fun one other => layoutOrder (registry.get one) (registry.get other))
    (fun _ _ _ => layoutOrder_trans) (fun _ _ => layoutOrder_total _ _) _

/-! ## The order of equations -/

/-- The record that the equation of a number computes. -/
def Elimination.computedRecord (state : Elimination) (number : Nat) : Record :=
  state.registry.get ((state.equations[number]?.bind OrderedEquation.computes).getD 0)

variable {state : Elimination}

/-- Exactly the equations with an order are listed. -/
theorem mem_equationOrder {number : Nat} :
    number ∈ equationOrder state ↔
      ∃ equation, state.equations[number]? = some equation ∧ equation.order.isSome := by
  unfold equationOrder
  rw [(List.mergeSort_perm _ _).mem_iff, List.mem_filter, List.mem_range]
  constructor
  · rintro ⟨inside, done⟩
    exact ⟨_, List.getElem?_eq_getElem inside, by simpa [inside] using done⟩
  · rintro ⟨equation, found, done⟩
    refine ⟨(List.getElem?_eq_some_iff.mp found).1, ?_⟩
    rw [found]
    exact done

theorem nodup_equationOrder : (equationOrder state).Nodup := by
  unfold equationOrder
  rw [(List.mergeSort_perm _ _).nodup_iff]
  exact List.nodup_range.filter _

/-- Equations are listed by the records that they compute. -/
theorem pairwise_equationOrder :
    (equationOrder state).Pairwise fun one other =>
      layoutOrder (state.computedRecord one) (state.computedRecord other) :=
  @List.pairwise_mergeSort _
    (fun one other => layoutOrder (state.computedRecord one) (state.computedRecord other))
    (fun _ _ _ => layoutOrder_trans) (fun _ _ => layoutOrder_total _ _) _

/-- A filter that accepts everything keeps all positions. -/
theorem getElem?_filterMap_of_isSome {α β : Type} {image : α → Option β} {values : List α}
    (every : ∀ value ∈ values, (image value).isSome) (place : Nat) :
    (values.filterMap image)[place]? = values[place]?.bind image := by
  induction values generalizing place with
  | nil => rfl
  | cons head rest ih =>
      obtain ⟨result, equal⟩ := Option.isSome_iff_exists.mp (every head List.mem_cons_self)
      rw [List.filterMap_cons_some equal]
      cases place with
      | zero => simpa using equal.symm
      | succ place =>
          exact ih (fun value later => every value (List.mem_cons_of_mem head later)) place

end ComponentModel.Analysis
