import ComponentModel.Proofs.Elimination.Looks

/-!
# The flags of an equation that has been given an order

An equation raises and lowers its flags while its items are settled one after the other, each look
seeing some of them only. Once it has an order the flags no longer tell how it got there: they can be
read off the kinds of the classes that it refers to, and off the equations that compute those.
-/

namespace ComponentModel.Analysis

namespace Elimination

open Relation (ReflTransGen)

variable {index : Index} {start state next final : Elimination} {number order : Nat}
  {source equation : OrderedEquation} {item : Item}

/-! ## Kinds that have been met -/

/-- The kind of a class changes once it is computed or marked, and in no other way. -/
theorem kind_of_move (ready : Start start) (moves : ReflTransGen (Move index) start state)
    (move : Move index state next) (record : Nat) :
    (state.registry.get record).kind = .unknown ∨
      (next.registry.get record).kind = (state.registry.get record).kind ∨
      (next.registry.get record).kind = .overconstrained := by
  cases move with
  | mark number placed =>
      by_cases same : number = record
      · subst same
        rw [mark, Registry.get_change_self _ (Registry.lt_length_of_place placed)]
        exact Or.inr (Or.inr rfl)
      · rw [mark, Registry.get_change_of_ne _ same]
        exact Or.inr (Or.inl rfl)
  | reduce => exact Or.inr (Or.inl rfl)
  | report => exact Or.inr (Or.inl (kind_report ..))
  | compute number equation item found waiting single unsettled computable =>
      by_cases same : item.number = record
      · subst same
        obtain ⟨source, foundSource, -, -, items⟩ := origin_of_moves moves found
        have member := List.mem_of_getElem? foundSource
        have asked : item ∈ source.items := items.subset (by simp [single])
        have open_ := (isOpen_of_computable ready (standing_of_moves ready moves) member asked
          unsettled computable).2
        have inside : item.number < state.registry.length :=
          length_registry_of_moves moves ▸ ready.inside source member item asked
        cases item with
        | value record => exact Or.inl open_
        | rate record =>
            have isState : (state.registry.get record).kind = .state := open_
            refine Or.inr (Or.inl ?_)
            rw [get_compute_self inside]
            simp [isState, OrderedEquation.resolved, Kind.resolvedBy]
      · rw [get_compute_of_ne same]
        exact Or.inr (Or.inl rfl)

/-- A flag that stays up as long as the kinds of all items that an equation meets satisfy a
condition. -/
structure KindFlag (flag : OrderedEquation → Bool) (good : Kind → Bool) : Prop where
  new : ∀ expr component plain differentiated,
    flag (.new expr component plain differentiated) = true
  reduce : ∀ equation registry rateBased, flag (equation.reduce registry rateBased) =
    (flag equation && equation.items.all fun item => good (registry.get item.number).kind)
  ordered : ∀ equation order kind number,
    flag (equation.ordered order kind number) = flag equation
  unknown : good .unknown
  overconstrained : good .overconstrained = false

theorem kindFlag_trueConstant : KindFlag OrderedEquation.trueConstant (· == .unknown) where
  new _ _ _ _ := rfl
  reduce equation registry _ := by
    simp [OrderedEquation.reduce, OrderedEquation.eliminate, OrderedEquation.noteKinds,
      OrderedEquation.items, List.all_map, Function.comp_def]
  ordered _ _ _ _ := rfl
  unknown := rfl
  overconstrained := rfl

theorem kindFlag_variableBased :
    KindFlag OrderedEquation.variableBased OrderedEquation.isConstantKind where
  new _ _ _ _ := rfl
  reduce equation registry _ := by
    simp [OrderedEquation.reduce, OrderedEquation.eliminate, OrderedEquation.noteKinds,
      OrderedEquation.items, List.all_map, Function.comp_def]
  ordered _ _ _ _ := rfl
  unknown := rfl
  overconstrained := rfl

namespace KindFlag

variable {flag : OrderedEquation → Bool} {good : Kind → Bool}

/-- A kind that lowers the flag is not replaced by one that does not. -/
theorem bad_of_move (flags : KindFlag flag good) (ready : Start start)
    (moves : ReflTransGen (Move index) start state) (move : Move index state next) {record : Nat}
    (bad : good (state.registry.get record).kind = false) :
    good (next.registry.get record).kind = false := by
  rcases kind_of_move ready moves move record with unknown | same | marked
  · rw [unknown, flags.unknown] at bad
    cases bad
  · rwa [same]
  · rw [marked, flags.overconstrained]

/-- As long as the flag is up, all that the equation has lost is of a good kind, or marked. -/
theorem good_of_gone (flags : KindFlag flag good) (ready : Start start)
    (moves : ReflTransGen (Move index) start state)
    (foundSource : start.equations[number]? = some source)
    (found : state.equations[number]? = some equation) (up : flag equation) {other : Item}
    (asked : other ∈ source.items) (gone : other ∉ equation.items) :
    good (state.registry.get other.number).kind ∨
      (state.registry.get other.number).kind = .overconstrained := by
  refine (equation_induction
    (fun state _ source equation => flag equation → ∀ other ∈ source.items,
      other ∉ equation.items → (state.registry.get other.number).kind ≠ .unknown ∧
        (good (state.registry.get other.number).kind ∨
          (state.registry.get other.number).kind = .overconstrained))
    moves ?_ ?_ ?_ ?_ number source equation foundSource found up other asked gone).2
  · intro number source _ _ other asked gone
    exact absurd asked gone
  · intro state next number source equation moves move met up other asked gone
    obtain ⟨met, fine⟩ := met up other asked gone
    rcases kind_of_move ready moves move other.number with unknown | same | marked
    · exact absurd unknown met
    · rw [same]
      exact ⟨met, fine⟩
    · simp [marked]
  · intro state number source equation moves foundSource _ _ met up other asked gone
    rw [reduced, flags.reduce, Bool.and_eq_true, List.all_eq_true] at up
    by_cases open_ : other ∈ equation.items
    · refine ⟨fun unknown => ?_, Or.inl (up.2 other open_)⟩
      have unsettled := isSettled_of_unknown ready moves foundSource asked unknown
      simp [reduced, open_, unsettled] at gone
    · exact met up.1 other asked open_
  · intro state number source equation item moves _ found waiting single unsettled computable met
      up other asked gone
    rw [flags.ordered] at up
    obtain ⟨met, fine⟩ := met up other asked gone
    rcases kind_of_move ready moves (.compute number equation item found waiting single unsettled
      computable) other.number with unknown | same | marked
    · exact absurd unknown met
    · rw [same]
      exact ⟨met, fine⟩
    · simp [marked]

/-- Once the flag is down, the kind of an item is to blame, and not that of an unknown value that
the equation computes. -/
theorem exists_bad (flags : KindFlag flag good) (ready : Start start)
    (moves : ReflTransGen (Move index) start state)
    (foundSource : start.equations[number]? = some source)
    (found : state.equations[number]? = some equation) (down : flag equation = false) :
    ∃ other ∈ source.items, good (state.registry.get other.number).kind = false ∧
      ∀ record, equation.computes = some record →
        (start.registry.get record).kind = .unknown → other.number ≠ record := by
  refine equation_induction
    (fun state _ source equation => flag equation = false → ∃ other ∈ source.items,
      good (state.registry.get other.number).kind = false ∧
      ∀ record, equation.computes = some record →
        (start.registry.get record).kind = .unknown → other.number ≠ record)
    moves ?_ ?_ ?_ ?_ number source equation foundSource found down
  · intro number source foundSource down
    rw [ready.untouched source (List.mem_of_getElem? foundSource), flags.new] at down
    cases down
  · intro state next number source equation moves move blamed down
    obtain ⟨other, asked, bad, different⟩ := blamed down
    exact ⟨other, asked, flags.bad_of_move ready moves move bad, different⟩
  · intro state number source equation moves foundSource found waiting blamed down
    have uncomputed := (((history_of_moves ready moves).progress number source equation foundSource
      found).waiting waiting).1
    cases before : flag equation with
    | false => exact blamed before
    | true =>
        rw [reduced, flags.reduce, before, Bool.true_and, List.all_eq_false] at down
        obtain ⟨other, open_, bad⟩ := down
        obtain ⟨source', foundSource', -, -, items⟩ := origin_of_moves moves found
        obtain rfl := Option.some.inj (foundSource.symm.trans foundSource')
        refine ⟨other, items.subset open_, by simpa using bad, fun record computes => ?_⟩
        cases uncomputed.symm.trans computes
  · intro state number source equation item moves _ found waiting single unsettled computable blamed
      down
    rw [flags.ordered] at down
    obtain ⟨other, asked, bad, -⟩ := blamed down
    refine ⟨other, asked, ?_, ?_⟩
    · exact flags.bad_of_move ready moves (.compute number equation item found waiting single
        unsettled computable) bad
    · intro record computes unknown same
      obtain rfl : item.number = record := Option.some.inj computes
      have still := (kind_eq_unknown_iff ready moves item.number).mpr
        ⟨unknown, by simp [Item.place_eq_none unsettled]⟩
      rw [same, still, flags.unknown] at bad
      cases bad

/-- In the end the flag of an equation that computes a value is up exactly if all that the equation
refers to besides is of a good kind. -/
theorem iff_of_computing (flags : KindFlag flag good) (ready : Start start)
    (moves : ReflTransGen (Move index) start final)
    (unmarked : ∀ record, (final.registry.get record).kind ≠ .overconstrained)
    (computing : Computing start final number order source equation item)
    (unknown : (start.registry.get item.number).kind = .unknown) :
    flag equation = true ↔ ∀ other ∈ source.items, other ≠ item →
      good (final.registry.get other.number).kind = true := by
  constructor
  · intro up other asked different
    have gone : other ∉ equation.items := by simpa [computing.single] using different
    exact (flags.good_of_gone ready moves computing.foundSource computing.found up asked
      gone).resolve_right (unmarked other.number)
  · intro fine
    by_contra down
    obtain ⟨other, asked, bad, different⟩ := flags.exists_bad ready moves computing.foundSource
      computing.found (by simpa using down)
    have elsewhere := different item.number computing.computes unknown
    rw [fine other asked fun same => elsewhere (congrArg Item.number same)] at bad
    cases bad

end KindFlag

/-- What an equation computes has the kind that the flags of the equation make of it, unless it is
marked, and the equation is of the kind that goes with it. -/
theorem Computing.kinds (ready : Start start) (moves : ReflTransGen (Move index) start final)
    (unmarked : ∀ record, (final.registry.get record).kind ≠ .overconstrained)
    (computing : Computing start final number order source equation item) :
    (final.registry.get item.number).kind =
        equation.resolved (start.registry.get item.number).kind ∧
      equation.kind = OrderedEquation.kindFor (final.registry.get item.number).kind := by
  have done : equation.order.isSome := Option.isSome_of_eq_some computing.order
  refine ⟨?_, ?_⟩
  · refine (equation_induction
      (fun state _ _ equation => equation.order.isSome → ∀ item, equation.items = [item] →
        (state.registry.get item.number).place.isSome ∧
        ((state.registry.get item.number).kind = .overconstrained ∨
          (state.registry.get item.number).kind =
            equation.resolved (start.registry.get item.number).kind))
      moves ?_ ?_ ?_ ?_ number source equation computing.foundSource computing.found done item
      computing.single).2.resolve_left (unmarked item.number)
    · intro number source foundSource done
      simp [ready.waiting (List.mem_of_getElem? foundSource)] at done
    · intro state next number source equation _ move resolved done item single
      obtain ⟨placed, kind⟩ := resolved done item single
      obtain ⟨place, -, same | marked⟩ := get_of_move move placed
      · exact ⟨place ▸ placed, same ▸ kind⟩
      · exact ⟨place ▸ placed, Or.inl marked⟩
    · intro state number source equation _ _ _ waiting _ done
      simp [reduced, waiting] at done
    · intro state number source equation item moves foundSource found waiting single unsettled
        computable _ _ other same
      obtain rfl : item = other := by simpa [single] using same
      obtain ⟨source', foundSource', -, -, items⟩ := origin_of_moves moves found
      have inside : item.number < state.registry.length := length_registry_of_moves moves ▸
        ready.inside source' (List.mem_of_getElem? foundSource') item
          (items.subset (by simp [single]))
      have kept := (standing_of_moves ready moves item.number).of_unplaced
        (fun given => (ready.placed item.number).mpr given) (Item.place_eq_none unsettled)
      rw [get_compute_self inside, kept.1]
      exact ⟨rfl, Or.inr rfl⟩
  · have agrees := kindAgrees_of_ordered ready moves computing.foundSource computing.found done
      computing.single
    exact (agrees.kind.resolve_left (unmarked item.number)).1

/-! ## States and rates -/

theorem exists_equationMove (move : Move index state next)
    (found : state.equations[number]? = some equation) :
    ∃ changed, next.equations[number]? = some changed ∧
      EquationMove state number equation changed := by
  have inside : number < next.equations.length := by
    rw [length_equations_of_move move]
    exact (List.getElem?_eq_some_iff.mp found).1
  have foundNext := List.getElem?_eq_getElem inside
  obtain ⟨before, foundBefore, change⟩ := equationMove_of_move move foundNext
  obtain rfl := Option.some.inj (found.symm.trans foundBefore)
  exact ⟨_, foundNext, change⟩

/-- Dependence on states and rates is not forgotten. -/
theorem rateBased_of_move (move : Move index state next) (based : state.rateBased number) :
    next.rateBased number := by
  cases found : state.equations[number]? with
  | none => simp [rateBased, found] at based
  | some equation =>
      obtain ⟨changed, foundNext, change⟩ := exists_equationMove move found
      simp only [rateBased, found, foundNext] at based ⊢
      cases change with
      | kept => exact based
      | reduced =>
          simp [reduced, OrderedEquation.reduce, OrderedEquation.noteKinds,
            OrderedEquation.eliminate, based]
      | ordered => exact based

/-- An equation with an order does not become dependent on a state or a rate. -/
theorem rateBased_of_ordered (move : Move index state next)
    (done : (state.orderOf number).isSome) : next.rateBased number = state.rateBased number := by
  obtain ⟨order, ordered⟩ := Option.isSome_iff_exists.mp done
  obtain ⟨equation, found, ordered⟩ := orderOf_eq_some.mp ordered
  obtain ⟨changed, foundNext, change⟩ := exists_equationMove move found
  simp only [rateBased, found, foundNext]
  cases change with
  | kept => rfl
  | reduced waiting => simp [waiting] at ordered
  | ordered _ waiting => simp [waiting] at ordered

/-- The value of a state, a value computed from states or rates, or a rate. -/
def IsRateBased (start state : Elimination) : Item → Prop
  | .value record => (start.registry.get record).kind = .state ∨
      ∃ number, (state.registry.get record).equation = some number ∧ state.rateBased number
  | .rate _ => True

theorem IsRateBased.of_move (ready : Start start) (moves : ReflTransGen (Move index) start state)
    (move : Move index state next) (based : IsRateBased start state item) :
    IsRateBased start next item := by
  cases item with
  | rate => trivial
  | value record =>
      rcases based with isState | ⟨number, named, flag⟩
      · exact Or.inl isState
      · exact Or.inr ⟨number, equation_of_move (standing_of_moves ready moves) ready move named,
          rateBased_of_move move flag⟩

theorem rateBased_reduced : (state.reduced number equation).rateBased = true ↔
    equation.rateBased = true ∨ (∃ record, .rate record ∈ equation.items) ∨
      ∃ record, .value record ∈ equation.items ∧ (state.registry.get record).isKnown ∧
        OrderedEquation.recordRateBased (fun other => other != number && state.rateBased other)
          (state.registry.get record) := by
  simp [reduced, OrderedEquation.reduce, OrderedEquation.noteKinds, OrderedEquation.eliminate,
    or_assoc, ← List.isEmpty_eq_false_iff_exists_mem]

/-- What makes an equation depend on states or rates is a rate, or a value that it has lost. -/
theorem exists_isRateBased (ready : Start start) (moves : ReflTransGen (Move index) start state)
    (foundSource : start.equations[number]? = some source)
    (found : state.equations[number]? = some equation) (flag : equation.rateBased) :
    ∃ other ∈ source.items, IsRateBased start state other ∧
      ((∃ record, other = .rate record) ∨ other ∉ equation.items) := by
  refine equation_induction
    (fun state _ source equation => equation.rateBased → ∃ other ∈ source.items,
      IsRateBased start state other ∧ ((∃ record, other = .rate record) ∨ other ∉ equation.items))
    moves ?_ ?_ ?_ ?_ number source equation foundSource found flag
  · intro number source foundSource flag
    rw [ready.untouched source (List.mem_of_getElem? foundSource)] at flag
    cases flag
  · intro state next number source equation moves move cause flag
    obtain ⟨other, asked, based, gone⟩ := cause flag
    exact ⟨other, asked, based.of_move ready moves move, gone⟩
  · intro state number source equation moves foundSource found waiting cause flag
    obtain ⟨source', foundSource', -, -, items⟩ := origin_of_moves moves found
    obtain rfl := Option.some.inj (foundSource.symm.trans foundSource')
    rcases rateBased_reduced.mp flag with flag | ⟨record, open_⟩ | ⟨record, open_, known, based⟩
    · obtain ⟨other, asked, based, gone⟩ := cause flag
      refine ⟨other, asked, based, gone.imp_right fun gone open_ => gone ?_⟩
      rw [reduced, OrderedEquation.items_reduce] at open_
      exact List.mem_of_mem_filter open_
    · exact ⟨.rate record, items.subset open_, trivial, Or.inl ⟨record, rfl⟩⟩
    · refine ⟨.value record, items.subset open_, ?_, Or.inr ?_⟩
      · unfold OrderedEquation.recordRateBased at based
        cases named : (state.registry.get record).equation with
        | some other =>
            simp only [named, Bool.and_eq_true] at based
            exact Or.inr ⟨other, named, based.2⟩
        | none =>
            simp only [named, beq_iff_eq] at based
            refine Or.inl ?_
            cases standing_of_moves ready moves record with
            | untouched kind => exact kind.symm.trans based
            | twice _ kind => simp [kind] at based
            | value _ _ _ computed => simp [named] at computed
            | rate isState => exact isState
      · simp [reduced, Item.isSettled, known]
  · intro state number source equation item moves foundSource found waiting single unsettled
      computable cause flag
    obtain ⟨other, asked, based, gone⟩ := cause flag
    exact ⟨other, asked, based.of_move ready moves (.compute number equation item found waiting
      single unsettled computable), gone⟩

/-- The value of a class is given, or computed by an equation that depends on neither states nor
rates. -/
def IsUnbased (start state : Elimination) (record : Nat) : Prop :=
  (∃ other, (state.registry.get record).equation = some other ∧
    (state.orderOf other).isSome ∧ state.rateBased other = false) ∨
  (start.registry.get record).kind = .constant ∨
  (start.registry.get record).kind = .integrationVariable

theorem IsUnbased.of_move {record : Nat} (ready : Start start)
    (moves : ReflTransGen (Move index) start state) (move : Move index state next)
    (unbased : IsUnbased start state record) : IsUnbased start next record := by
  refine unbased.imp_left ?_
  rintro ⟨other, named, done, unbased⟩
  obtain ⟨order, ordered⟩ := Option.isSome_iff_exists.mp done
  exact ⟨other, equation_of_move (standing_of_moves ready moves) ready move named,
    Option.isSome_of_eq_some (orderOf_of_move move ordered),
    (rateBased_of_ordered move done).trans unbased⟩

/-- A class that is known and that no equation computes is as it was at the start. -/
theorem recordRateBased_of_unnamed (ready : Start start)
    (moves : ReflTransGen (Move index) start state) {record : Nat}
    (known : (state.registry.get record).isKnown)
    (named : (state.registry.get record).equation = none) (based : Nat → Bool) :
    OrderedEquation.recordRateBased based (state.registry.get record) ∨
      (start.registry.get record).kind = .constant ∨
      (start.registry.get record).kind = .integrationVariable := by
  cases standing_of_moves ready moves record with
  | twice given => exact Or.inr (Or.inl given)
  | value _ _ _ computed => simp [named] at computed
  | rate _ _ _ computed => simp [named] at computed
  | untouched kind place _ =>
      have initial := ready.initial record
      have placed := ready.placed record
      cases origin : (start.registry.get record).kind with
      | state =>
          refine Or.inl ?_
          simp [OrderedEquation.recordRateBased, named, kind, origin]
      | constant => exact Or.inr (Or.inl rfl)
      | integrationVariable => exact Or.inr (Or.inr rfl)
      | unknown | shouldBeState => simp_all [Record.isKnown, Kind.isKnown]
      | computedTrueConstant | computedVariableBasedConstant | algebraic
      | overconstrained => simp [origin, Kind.isInitial] at initial

/-- A known class that an equation loses makes it depend on states or rates, or has a value that
does not. -/
theorem recordRateBased_of_known (ready : Start start)
    (moves : ReflTransGen (Move index) start state)
    (found : state.equations[number]? = some equation) (waiting : equation.order = none)
    {record : Nat} (known : (state.registry.get record).isKnown) :
    OrderedEquation.recordRateBased (fun other => other != number && state.rateBased other)
        (state.registry.get record) ∨ IsUnbased start state record := by
  cases named : (state.registry.get record).equation with
  | none => exact (recordRateBased_of_unnamed ready moves known named _).imp_right Or.inr
  | some other =>
      obtain ⟨computing, _, order, foundOther, ordered, -⟩ := exists_computing ready moves named
      have done : (state.orderOf other).isSome :=
        Option.isSome_of_eq_some (orderOf_eq_some.mpr ⟨computing, foundOther, ordered⟩)
      have different : other ≠ number := by
        rintro rfl
        obtain rfl := Option.some.inj (found.symm.trans foundOther)
        simp [waiting] at ordered
      cases based : state.rateBased other with
      | true => exact Or.inl (by simp [OrderedEquation.recordRateBased, named, different, based])
      | false => exact Or.inr (Or.inl ⟨other, named, done, based⟩)

/-- An equation that has lost a value depends on states or rates, unless the value is that of a
constant or of the variable of integration, or is computed from neither states nor rates. -/
theorem rateBased_of_gone (ready : Start start) (moves : ReflTransGen (Move index) start state)
    (foundSource : start.equations[number]? = some source)
    (found : state.equations[number]? = some equation) {record : Nat}
    (asked : .value record ∈ source.items) (gone : .value record ∉ equation.items) :
    equation.rateBased = true ∨ IsUnbased start state record := by
  refine equation_induction
    (fun state _ source equation => .value record ∈ source.items →
      .value record ∉ equation.items → equation.rateBased = true ∨ IsUnbased start state record)
    moves ?_ ?_ ?_ ?_ number source equation foundSource found asked gone
  · intro number source _ asked gone
    exact absurd asked gone
  · intro state next number source equation moves move lost asked gone
    exact (lost asked gone).imp_right (IsUnbased.of_move ready moves move)
  · intro state number source equation moves foundSource found waiting lost asked gone
    by_cases open_ : Item.value record ∈ equation.items
    · have known : (state.registry.get record).isKnown := by
        simpa [reduced, open_, Item.isSettled] using gone
      refine (recordRateBased_of_known ready moves found waiting known).imp_left fun based => ?_
      exact rateBased_reduced.mpr (Or.inr (Or.inr ⟨record, open_, known, based⟩))
    · refine (lost asked open_).imp_left fun flag => ?_
      exact rateBased_reduced.mpr (Or.inl flag)
  · intro state number source equation item moves foundSource found waiting single unsettled
      computable lost asked gone
    exact (lost asked gone).imp_right (IsUnbased.of_move ready moves
      (.compute number equation item found waiting single unsettled computable))

/-- In the end an equation depends on states or rates exactly if it refers to a rate, to the value
of a state or to a value that is computed by such an equation, other than itself. -/
theorem Computing.rateBased_iff (ready : Start start) (loop : Loop index start final)
    (moves : ReflTransGen (Move index) start final)
    (computing : Computing start final number order source equation item) :
    equation.rateBased = true ↔ ∃ other ∈ source.items, IsRateBased start final other ∧
      ((∃ record, other = .rate record) ∨ other ≠ item) := by
  constructor
  · intro flag
    obtain ⟨other, asked, based, gone⟩ :=
      exists_isRateBased ready moves computing.foundSource computing.found flag
    refine ⟨other, asked, based, gone.imp_right fun gone => ?_⟩
    simpa [computing.single] using gone
  · rintro ⟨other, asked, based, apart⟩
    cases other with
    | rate record =>
        exact loop.rateBased_of_rate ready computing.foundSource computing.found
          (Option.isSome_of_eq_some computing.order) asked
    | value record =>
        have gone : .value record ∉ equation.items := by
          simpa [computing.single] using apart
        rcases rateBased_of_gone ready moves computing.foundSource computing.found asked gone with
          flag | ⟨other, named, done, unbased⟩ | given
        · exact flag
        · rcases based with isState | ⟨other', named', flag⟩
          · -- The value of a state has been lost after the rate had been computed.
            obtain ⟨equation', item', order', found', ordered', single', same, -, open'⟩ :=
              exists_computing ready moves named
            obtain ⟨source', foundSource', -, -, items'⟩ := origin_of_moves moves found'
            have isRate : item' = .rate record :=
              Item.eq_of_isOpen open' (show Item.IsOpen _ (.rate record) from isState) same
            have asked' : .rate record ∈ source'.items := items'.subset (by simp [single', isRate])
            have flag := loop.rateBased_of_rate ready foundSource' found'
              (Option.isSome_of_eq_some ordered') asked'
            simp [rateBased, found', flag] at unbased
          · obtain rfl := Option.some.inj (named.symm.trans named')
            simp [flag] at unbased
        · rcases based with isState | ⟨other, named, -⟩
          · rcases given with given | given <;> cases given.symm.trans isState
          · obtain ⟨_, item', _, _, _, _, rfl, -, open'⟩ := exists_computing ready moves named
            cases item' with
            | value _ => rcases given with given | given <;> cases given.symm.trans open'
            | rate _ => rcases given with given | given <;> cases given.symm.trans open'

end Elimination

end ComponentModel.Analysis
