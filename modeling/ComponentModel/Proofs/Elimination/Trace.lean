import ComponentModel.Proofs.Elimination.History

/-!
# What an equation remembers

While its references are settled, an equation notes which equations it depends on and what kinds
of variables it has met. These notes are only right because a class that has been settled stays as
it is: from then on it can at most be marked as constrained twice.
-/

namespace ComponentModel.Analysis

namespace Elimination

open Relation (ReflTransGen)

variable {index : Index} {start state next : Elimination}

/-- What holds of every equation at the start and is kept by its reductions, by its order and by
all other moves holds of every equation throughout an elimination. -/
theorem equation_induction
    (property : Elimination → Nat → OrderedEquation → OrderedEquation → Prop)
    (moves : ReflTransGen (Move index) start state)
    (initially : ∀ number origin, start.equations[number]? = some origin →
      property start number origin origin)
    (kept : ∀ {state next number origin equation}, ReflTransGen (Move index) start state →
      Move index state next → property state number origin equation →
      property next number origin equation)
    (reduced : ∀ {state number origin equation}, ReflTransGen (Move index) start state →
      start.equations[number]? = some origin → state.equations[number]? = some equation →
      equation.order = none → property state number origin equation →
      property state number origin (state.reduced number equation))
    (ordered : ∀ {state number origin equation item}, ReflTransGen (Move index) start state →
      start.equations[number]? = some origin → state.equations[number]? = some equation →
      equation.order = none → equation.items = [item] → item.isSettled state.registry = false →
      (equation.resolved (state.registry.get item.number).kind).isComputable →
      property state number origin equation →
      property (state.compute number equation item.number) number origin
        (equation.ordered state.counters.order
          (equation.resolved (state.registry.get item.number).kind) item.number)) :
    ∀ number origin equation, start.equations[number]? = some origin →
      state.equations[number]? = some equation → property state number origin equation := by
  induction moves with
  | refl =>
      intro number origin equation foundOrigin found
      obtain rfl := Option.some.inj (foundOrigin.symm.trans found)
      exact initially number origin foundOrigin
  | tail moves move ih =>
      intro number origin equation foundOrigin found
      cases move with
      | mark other placed met initialised =>
          exact kept moves (.mark other placed met initialised)
            (ih number origin equation foundOrigin found)
      | report other declaration same =>
          exact kept moves (.report other declaration same)
            (ih number origin equation foundOrigin found)
      | reduce other before foundOther waiting =>
          have move : Move index _ _ := .reduce other before foundOther waiting
          by_cases same : other = number
          · subst same
            have inside := (List.getElem?_eq_some_iff.mp foundOther).1
            simp only [setEquation, List.getElem?_set_self inside, Option.some.injEq] at found
            subst found
            exact kept moves move (reduced moves foundOrigin foundOther waiting
              (ih other origin before foundOrigin foundOther))
          · simp only [setEquation, List.getElem?_set_ne same] at found
            exact kept moves move (ih number origin equation foundOrigin found)
      | compute other before item foundOther waiting single unsettled computable =>
          have move : Move index _ _ :=
            .compute other before item foundOther waiting single unsettled computable
          by_cases same : other = number
          · subst same
            have inside := (List.getElem?_eq_some_iff.mp foundOther).1
            simp only [compute, List.getElem?_set_self inside, Option.some.injEq] at found
            subst found
            exact ordered moves foundOrigin foundOther waiting single unsettled computable
              (ih other origin before foundOrigin foundOther)
          · simp only [compute, List.getElem?_set_ne same] at found
            exact kept moves move (ih number origin equation foundOrigin found)

/-! ## Settled classes stay as they are -/

/-- A record with a place keeps its place and its equation, and its kind as long as it is not
marked. -/
theorem get_of_move (move : Move index state next) {record : Nat}
    (placed : (state.registry.get record).place.isSome) :
    (next.registry.get record).place = (state.registry.get record).place ∧
      (next.registry.get record).equation = (state.registry.get record).equation ∧
      ((next.registry.get record).kind = (state.registry.get record).kind ∨
        (next.registry.get record).kind = .overconstrained) := by
  cases move with
  | mark number marked =>
      refine ⟨place_mark .., equation_mark .., ?_⟩
      by_cases same : number = record
      · subst same
        rw [mark, Registry.get_change_self _ (Registry.lt_length_of_place marked)]
        exact Or.inr rfl
      · rw [mark, Registry.get_change_of_ne _ same]
        exact Or.inl rfl
  | reduce => exact ⟨rfl, rfl, Or.inl rfl⟩
  | report => exact ⟨place_report .., equation_report .., Or.inl (kind_report ..)⟩
  | compute number equation item found waiting single unsettled =>
      have different : item.number ≠ record := by
        rintro rfl
        simp [Item.place_eq_none unsettled] at placed
      rw [get_compute_of_ne different]
      exact ⟨rfl, rfl, Or.inl rfl⟩

/-- A class whose value is constant, or that is constrained twice. -/
def IsFixed (record : Record) : Prop :=
  record.place.isSome ∧ (record.kind = .constant ∨ record.kind = .computedTrueConstant ∨
    record.kind = .computedVariableBasedConstant ∨ record.kind = .overconstrained)

theorem IsFixed.of_move (move : Move index state next) {record : Nat}
    (fixed : IsFixed (state.registry.get record)) : IsFixed (next.registry.get record) := by
  obtain ⟨place, -, kind⟩ := get_of_move move fixed.1
  refine ⟨place ▸ fixed.1, ?_⟩
  rcases kind with same | marked
  · rw [same]
    exact fixed.2
  · simp [marked]

/-! ## Flags -/

/-- A class about which nothing is known has no place. -/
theorem unplaced_of_unknown (ready : Start start) (moves : ReflTransGen (Move index) start state)
    {record : Nat} (unknown : (state.registry.get record).kind = .unknown) :
    (start.registry.get record).kind = .unknown ∧ (state.registry.get record).place = none := by
  have known := (kind_eq_unknown_iff ready moves record).mp unknown
  exact ⟨known.1, by simpa using known.2⟩

/-- What is open and about which nothing is known is an open value. -/
theorem isSettled_of_unknown (ready : Start start) (moves : ReflTransGen (Move index) start state)
    {number : Nat} {origin : OrderedEquation} (foundOrigin : start.equations[number]? = some origin)
    {item : Item} (asked : item ∈ origin.items)
    (unknown : (state.registry.get item.number).kind = .unknown) :
    item.isSettled state.registry = false := by
  obtain ⟨unknownStart, unplaced⟩ := unplaced_of_unknown ready moves unknown
  cases item with
  | value record =>
      simp_all [Item.isSettled, Record.isKnown, Kind.isKnown]
  | rate record =>
      have differentiable := ready.differentiable origin (List.mem_of_getElem? foundOrigin) record
        (OrderedEquation.rate_mem_items.mp asked)
      exact absurd unknownStart differentiable.1

/-- As long as an equation has met nothing but unknown variables, it has lost no reference. -/
theorem items_of_trueConstant (ready : Start start)
    (moves : ReflTransGen (Move index) start state) {number : Nat}
    {origin equation : OrderedEquation} (foundOrigin : start.equations[number]? = some origin)
    (found : state.equations[number]? = some equation) (flag : equation.trueConstant) :
    equation.items = origin.items := by
  refine equation_induction
    (fun _ _ origin equation => equation.trueConstant → equation.items = origin.items)
    moves (fun _ _ _ _ => rfl) (fun _ _ same => same) ?_ (fun _ _ _ _ _ _ _ same => same) number
    origin equation foundOrigin found flag
  intro state number origin equation moves foundOrigin _ _ same flag
  simp only [reduced, OrderedEquation.reduce, OrderedEquation.noteKinds, OrderedEquation.eliminate,
    Bool.and_eq_true, List.all_eq_true, List.mem_map, List.mem_append, beq_iff_eq,
    forall_exists_index, and_imp, forall_apply_eq_imp_iff₂] at flag
  rw [reduced, OrderedEquation.items_reduce, same flag.1, List.filter_eq_self]
  intro item asked
  have unknown : (state.registry.get item.number).kind = .unknown := by
    have open_ : item ∈ equation.items := (same flag.1).symm ▸ asked
    cases item with
    | value record =>
        exact flag.2 record (Or.inl (OrderedEquation.value_mem_items.mp open_))
    | rate record =>
        exact flag.2 record (Or.inr (OrderedEquation.rate_mem_items.mp open_))
  simp [isSettled_of_unknown ready moves foundOrigin asked unknown]

/-- A met class of a constant kind is fixed, and is one that started as a constant or open. -/
theorem isFixed_of_isConstantKind (ready : Start start)
    (moves : ReflTransGen (Move index) start state) {record : Nat}
    (met : (state.registry.get record).kind ≠ .unknown)
    (constant : OrderedEquation.isConstantKind (state.registry.get record).kind) :
    IsFixed (state.registry.get record) ∧ ((start.registry.get record).kind = .constant ∨
      (start.registry.get record).kind = .unknown) := by
  cases standing_of_moves ready moves record with
  | untouched kind place _ =>
      have initial := ready.initial record
      rw [kind] at met constant
      have given : (start.registry.get record).kind = .constant := by
        cases equal : (start.registry.get record).kind <;>
          simp_all [OrderedEquation.isConstantKind, Kind.isInitial]
      refine ⟨⟨?_, Or.inl (kind.trans given)⟩, Or.inl given⟩
      rw [place]
      exact (ready.placed record).mpr given
  | twice _ kind =>
      rw [kind] at constant
      cases constant
  | value unknown kind place _ =>
      refine ⟨⟨place, ?_⟩, Or.inr unknown⟩
      rcases kind with kind | kind | kind | kind
      · exact Or.inr (Or.inl kind)
      · exact Or.inr (Or.inr (Or.inl kind))
      · rw [kind] at constant
        cases constant
      · exact Or.inr (Or.inr (Or.inr kind))
  | rate _ kind =>
      rcases kind with kind | kind <;> rw [kind] at constant <;> cases constant

/-- An available item of a constant kind is the value of a class that is fixed. -/
theorem exists_isFixed (ready : Start start) (moves : ReflTransGen (Move index) start state)
    {number : Nat} {origin : OrderedEquation} (foundOrigin : start.equations[number]? = some origin)
    {item : Item} (asked : item ∈ origin.items) (settled : item.isSettled state.registry)
    (constant : OrderedEquation.isConstantKind (state.registry.get item.number).kind) :
    ∃ record, item = .value record ∧ IsFixed (state.registry.get record) := by
  have met : (state.registry.get item.number).kind ≠ .unknown := by
    intro unknown
    simp [isSettled_of_unknown ready moves foundOrigin asked unknown] at settled
  obtain ⟨fixed, given⟩ := isFixed_of_isConstantKind ready moves met constant
  cases item with
  | value record => exact ⟨record, rfl, fixed⟩
  | rate record =>
      have differentiable := ready.differentiable origin (List.mem_of_getElem? foundOrigin) record
        (OrderedEquation.rate_mem_items.mp asked)
      rcases given with constant | unknown
      · exact absurd constant differentiable.2
      · exact absurd unknown differentiable.1

/-- As long as an equation has met nothing but constants, it has lost nothing but their values. -/
theorem isFixed_of_variableBased (ready : Start start)
    (moves : ReflTransGen (Move index) start state) {number : Nat}
    {origin equation : OrderedEquation} (foundOrigin : start.equations[number]? = some origin)
    (found : state.equations[number]? = some equation) (flag : equation.variableBased) {item : Item}
    (asked : item ∈ origin.items) (gone : item ∉ equation.items) :
    ∃ record, item = .value record ∧ IsFixed (state.registry.get record) := by
  refine equation_induction
    (fun state _ origin equation => equation.variableBased →
      ∀ item ∈ origin.items, item ∉ equation.items →
        ∃ record, item = .value record ∧ IsFixed (state.registry.get record))
    moves ?_ ?_ ?_ ?_ number origin equation foundOrigin found flag item asked gone
  · intro number origin _ _ item asked gone
    exact absurd asked gone
  · intro state next number origin equation _ move fixed flag item asked gone
    obtain ⟨record, equal, isFixed⟩ := fixed flag item asked gone
    exact ⟨record, equal, isFixed.of_move move⟩
  · intro state number origin equation moves foundOrigin _ _ fixed flag item asked gone
    simp only [reduced, OrderedEquation.reduce, OrderedEquation.noteKinds,
      OrderedEquation.eliminate, Bool.and_eq_true, List.all_eq_true, List.mem_map,
      List.mem_append, forall_exists_index, and_imp, forall_apply_eq_imp_iff₂] at flag
    by_cases open_ : item ∈ equation.items
    · have settled : item.isSettled state.registry := by
        simpa [reduced, open_] using gone
      refine exists_isFixed ready moves foundOrigin asked settled ?_
      cases item with
      | value record => exact flag.2 record (Or.inl (OrderedEquation.value_mem_items.mp open_))
      | rate record => exact flag.2 record (Or.inr (OrderedEquation.rate_mem_items.mp open_))
    · exact fixed flag.1 item asked open_
  · intro state number origin equation item moves foundOrigin found waiting single unsettled
      computable fixed flag other asked gone
    obtain ⟨record, equal, isFixed⟩ := fixed flag other asked gone
    have move : Move index _ _ :=
      .compute number equation item found waiting single unsettled computable
    exact ⟨record, equal, isFixed.of_move move⟩

/-! ## Dependencies -/

theorem mem_dependencies_reduced {number other : Nat} {equation : OrderedEquation} :
    other ∈ (state.reduced number equation).dependencies ↔ other ∈ equation.dependencies ∨
      ∃ record ∈ equation.plain, (state.registry.get record).isKnown ∧
        (state.registry.get record).equation = some other := by
  simp [reduced, OrderedEquation.reduce, OrderedEquation.noteKinds, OrderedEquation.eliminate,
    and_assoc]

/-- What an equation depends on computes one of the values that it has lost, and has been ordered
before. -/
theorem order_lt_of_dependency (ready : Start start)
    (moves : ReflTransGen (Move index) start state) {number : Nat}
    {origin equation : OrderedEquation} (foundOrigin : start.equations[number]? = some origin)
    (found : state.equations[number]? = some equation) {other : Nat}
    (depends : other ∈ equation.dependencies) :
    ∃ order, state.orderOf other = some order ∧
      (∀ bound, equation.order = some bound → order < bound) ∧
      ∃ record, .value record ∈ origin.items ∧ .value record ∉ equation.items ∧
        (state.registry.get record).equation = some other := by
  refine equation_induction
    (fun state _ origin equation => ∀ other ∈ equation.dependencies,
      ∃ order, state.orderOf other = some order ∧
        (∀ bound, equation.order = some bound → order < bound) ∧
        ∃ record, .value record ∈ origin.items ∧ .value record ∉ equation.items ∧
          (state.registry.get record).equation = some other)
    moves ?_ ?_ ?_ ?_ number origin equation foundOrigin found other depends
  · intro number origin foundOrigin other depends
    rw [ready.untouched origin (List.mem_of_getElem? foundOrigin)] at depends
    cases depends
  · intro state next number origin equation moves move earlier other depends
    obtain ⟨order, ordered, before, record, asked, gone, named⟩ := earlier other depends
    exact ⟨order, orderOf_of_move move ordered, before, record, asked, gone,
      equation_of_move (standing_of_moves ready moves) ready move named⟩
  · intro state number origin equation moves foundOrigin found waiting earlier other depends
    have unbounded : ∀ order bound, (state.reduced number equation).order = some bound →
        order < bound := by
      intro order bound impossible
      rw [reduced, OrderedEquation.order_reduce, waiting] at impossible
      cases impossible
    rcases mem_dependencies_reduced.mp depends with noted | ⟨record, open_, known, named⟩
    · obtain ⟨order, ordered, -, record, asked, gone, named⟩ := earlier other noted
      refine ⟨order, ordered, unbounded order, record, asked, ?_, named⟩
      simp [reduced, gone]
    · obtain ⟨_, _, order, foundOther, ordered, -⟩ := exists_computing ready moves named
      have sublist : equation.items.Sublist origin.items := by
        obtain ⟨source, foundSource, -, -, items⟩ := origin_of_moves moves found
        obtain rfl := Option.some.inj (foundOrigin.symm.trans foundSource)
        exact items
      refine ⟨order, orderOf_eq_some.mpr ⟨_, foundOther, ordered⟩, unbounded order, record,
        sublist.subset (OrderedEquation.value_mem_items.mpr open_), ?_, named⟩
      simp [reduced, Item.isSettled, known]
  · intro state number origin equation item moves foundOrigin found waiting single unsettled
      computable earlier other depends
    have move : Move index _ _ :=
      .compute number equation item found waiting single unsettled computable
    obtain ⟨order, ordered, -, record, asked, gone, named⟩ := earlier other depends
    refine ⟨order, orderOf_of_move move ordered, ?_, record, asked, gone,
      equation_of_move (standing_of_moves ready moves) ready move named⟩
    intro bound equal
    cases equal
    exact (history_of_moves ready moves).order_lt moves ordered

/-- An equation depends on whatever computes the values that it has lost. -/
theorem mem_dependencies_of_gone (ready : Start start)
    (moves : ReflTransGen (Move index) start state) {number : Nat}
    {origin equation : OrderedEquation} (foundOrigin : start.equations[number]? = some origin)
    (found : state.equations[number]? = some equation) {record : Nat}
    (asked : .value record ∈ origin.items) (gone : .value record ∉ equation.items)
    (unknown : (start.registry.get record).kind = .unknown) :
    ∃ other ∈ equation.dependencies, (state.registry.get record).equation = some other := by
  refine equation_induction
    (fun state _ origin equation => ∀ record, .value record ∈ origin.items →
      .value record ∉ equation.items → (start.registry.get record).kind = .unknown →
      ∃ other ∈ equation.dependencies, (state.registry.get record).equation = some other)
    moves ?_ ?_ ?_ ?_ number origin equation foundOrigin found record asked gone unknown
  · intro number origin _ record asked gone
    exact absurd asked gone
  · intro state next number origin equation moves move noted record asked gone unknown
    obtain ⟨other, depends, named⟩ := noted record asked gone unknown
    exact ⟨other, depends, equation_of_move (standing_of_moves ready moves) ready move named⟩
  · intro state number origin equation moves foundOrigin found waiting noted record asked gone
      unknown
    by_cases open_ : Item.value record ∈ equation.items
    · have known : (state.registry.get record).isKnown := by
        simpa [reduced, open_, Item.isSettled] using gone
      have named : (state.registry.get record).equation.isSome := by
        cases standing_of_moves ready moves record with
        | untouched kind place _ =>
            have open_ := (unplaced_of_unknown ready moves (kind.trans unknown)).2
            simp [Record.isKnown, open_, kind, unknown, Kind.isKnown] at known
        | twice given => simp [unknown] at given
        | value _ _ _ named => exact named
        | rate isState => simp [unknown] at isState
      obtain ⟨other, named⟩ := Option.isSome_iff_exists.mp named
      exact ⟨other, mem_dependencies_reduced.mpr (Or.inr ⟨record,
        OrderedEquation.value_mem_items.mp open_, known, named⟩), named⟩
    · obtain ⟨other, depends, named⟩ := noted record asked open_ unknown
      exact ⟨other, mem_dependencies_reduced.mpr (Or.inl depends), named⟩
  · intro state number origin equation item moves foundOrigin found waiting single unsettled
      computable noted record asked gone unknown
    obtain ⟨other, depends, named⟩ := noted record asked gone unknown
    have move : Move index _ _ :=
      .compute number equation item found waiting single unsettled computable
    exact ⟨other, depends, equation_of_move (standing_of_moves ready moves) ready move named⟩

/-! ## Kinds -/

/-- An equation with an order has the kind of what it computes, as long as that is not marked, and
its flags are those that make the kind. -/
structure KindAgrees (equation : OrderedEquation) (record : Record) : Prop where
  placed : record.place.isSome
  kind : record.kind = .overconstrained ∨ equation.kind = OrderedEquation.kindFor record.kind ∧
    (record.kind = .computedTrueConstant → equation.trueConstant) ∧
    (record.kind = .computedVariableBasedConstant → equation.variableBased)

/-- The kind that an equation gives to an open item is that of its flags. -/
theorem flags_of_resolved {registry : Registry} {equation : OrderedEquation} {item : Item}
    (open_ : item.IsOpen registry) :
    let kind := equation.resolved (registry.get item.number).kind
    (kind = .computedTrueConstant → equation.trueConstant) ∧
      (kind = .computedVariableBasedConstant → equation.variableBased) := by
  cases item with
  | value record =>
      rw [Item.number_value, show (registry.get record).kind = .unknown from open_]
      unfold OrderedEquation.resolved Kind.resolvedBy
      grind
  | rate record =>
      rw [Item.number_rate, show (registry.get record).kind = .state from open_]
      constructor <;> intro impossible <;> cases impossible

theorem kindAgrees_of_ordered (ready : Start start)
    (moves : ReflTransGen (Move index) start state) {number : Nat}
    {origin equation : OrderedEquation} (foundOrigin : start.equations[number]? = some origin)
    (found : state.equations[number]? = some equation) (done : equation.order.isSome) {item : Item}
    (single : equation.items = [item]) :
    KindAgrees equation (state.registry.get item.number) := by
  refine equation_induction
    (fun state _ _ equation => equation.order.isSome → ∀ item,
      equation.items = [item] → KindAgrees equation (state.registry.get item.number))
    moves ?_ ?_ ?_ ?_ number origin equation foundOrigin found done item single
  · intro number origin foundOrigin done
    simp [ready.waiting (List.mem_of_getElem? foundOrigin)] at done
  · intro state next number origin equation _ move agrees done item single
    have agrees := agrees done item single
    obtain ⟨place, -, kind⟩ := get_of_move move agrees.placed
    refine ⟨place ▸ agrees.placed, ?_⟩
    rcases kind with same | marked
    · rw [same]
      exact agrees.kind
    · exact Or.inl marked
  · intro state number origin equation _ _ _ waiting _ done
    simp [reduced, waiting] at done
  · intro state number origin equation item moves foundOrigin found waiting single unsettled
      computable _ _ other same
    obtain rfl : item = other := by simpa [single] using same
    obtain ⟨source, foundSource, -, -, items⟩ := origin_of_moves moves found
    have member := List.mem_of_getElem? foundSource
    have asked : item ∈ source.items := items.subset (by simp [single])
    have inside : item.number < state.registry.length :=
      length_registry_of_moves moves ▸ ready.inside source member item asked
    have open_ := (isOpen_of_computable ready (standing_of_moves ready moves) member asked
      unsettled computable).2
    rw [get_compute_self inside]
    exact ⟨rfl, Or.inr ⟨rfl, flags_of_resolved open_⟩⟩

end Elimination

end ComponentModel.Analysis
