import ComponentModel.Proofs.Elimination.Matching
import ComponentModel.Proofs.Elimination.Trace

/-!
# Between two looks at equations

Some things hold whenever an elimination turns to its next equation, and not after each of the
moves that a look is made of: a class is marked for the sake of an equation with nothing but settled
items left, and an equation gets its order in a look that has noted the kinds of its items first.
An equation of the first sort never gets an order, so that no class is marked where all do.
-/

namespace ComponentModel.Analysis

namespace Elimination

open Relation (ReflTransGen)

variable {index : Index} {start state next final : Elimination} {number : Nat}

/-! ## Induction on looks -/

theorem pass_induction (property : Elimination → Prop)
    (look : ∀ {state number}, ReflTransGen (Move index) start state → property state →
      property (state.step index number).1)
    (numbers : List Nat) (moves : ReflTransGen (Move index) start state)
    (before : property state) : property (state.pass index numbers).1 := by
  induction numbers generalizing state with
  | nil => exact before
  | cons number rest ih => exact ih (moves.trans (moves_step ..)) (look moves before)

/-- What holds at the start and is kept by every look holds at the end of the loop. -/
theorem Loop.induction (property : Elimination → Prop) (loop : Loop index state final)
    (look : ∀ {state number}, ReflTransGen (Move index) start state → property state →
      property (state.step index number).1)
    (moves : ReflTransGen (Move index) start state) (before : property state) :
    property final := by
  induction loop with
  | stop => exact pass_induction property look _ moves before
  | again _ _ ih =>
      exact ih (moves.trans (moves_pass _)) (pass_induction property look _ moves before)

/-- A look changes at most the equation that it is a look at: the equation is reduced, and it may
then be given an order. -/
theorem equation_step {other : Nat} {changed : OrderedEquation}
    (found : (state.step index number).1.equations[other]? = some changed) :
    state.equations[other]? = some changed ∨
      ∃ equation, state.equations[other]? = some equation ∧ equation.order = none ∧
        (changed = state.reduced other equation ∨
          ∃ order kind last, changed = (state.reduced other equation).ordered order kind last) := by
  have look : Look index state number (state.step index number) := look_step
  generalize state.step index number = outcome at look found
  have replaced {equation replacement : OrderedEquation}
      (foundHere : state.equations[number]? = some equation)
      (found : (state.equations.set number replacement)[other]? = some changed) :
      state.equations[other]? = some changed ∨ number = other ∧ changed = replacement := by
    by_cases same : number = other
    · subst same
      rw [List.getElem?_set_self (List.getElem?_eq_some_iff.mp foundHere).1] at found
      exact Or.inr ⟨rfl, (Option.some.inj found).symm⟩
    · rw [List.getElem?_set_ne same] at found
      exact Or.inl found
  cases look with
  | idle => exact Or.inl found
  | twice => exact Or.inl found
  | several equation foundHere waiting =>
      rcases replaced foundHere found with kept | ⟨rfl, rfl⟩
      · exact Or.inl kept
      · exact Or.inr ⟨equation, foundHere, waiting, Or.inl rfl⟩
  | refused equation item declaration foundHere waiting =>
      rcases replaced foundHere found with kept | ⟨rfl, rfl⟩
      · exact Or.inl kept
      · exact Or.inr ⟨equation, foundHere, waiting, Or.inl rfl⟩
  | computed equation item declaration foundHere waiting =>
      rw [compute_setEquation] at found
      rcases replaced foundHere found with kept | ⟨rfl, rfl⟩
      · exact Or.inl kept
      · exact Or.inr ⟨equation, foundHere, waiting, Or.inr ⟨_, _, _, rfl⟩⟩

/-! ## Marked classes -/

/-- An equation waits for an order although the classes of all its open items have places. -/
def Blocked (state : Elimination) : Prop :=
  ∃ (number : Nat) (equation : OrderedEquation), state.equations[number]? = some equation ∧
    equation.order = none ∧
    ∀ item ∈ equation.items, (state.registry.get item.number).place.isSome

/-- The equation of a number is one that waits like this. -/
def BlockedAt (state : Elimination) (number : Nat) : Prop :=
  ∃ equation, state.equations[number]? = some equation ∧ equation.order = none ∧
    ∀ item ∈ equation.items, (state.registry.get item.number).place.isSome

/-- Such an equation waits forever. -/
theorem BlockedAt.of_move (move : Move index state next) (blocked : state.BlockedAt number) :
    next.BlockedAt number := by
  obtain ⟨equation, found, waiting, placed⟩ := blocked
  have kept : ∀ item ∈ equation.items, (next.registry.get item.number).place.isSome :=
    fun item open_ => (get_of_move move (placed item open_)).1 ▸ placed item open_
  cases move with
  | mark => exact ⟨equation, found, waiting, kept⟩
  | report => exact ⟨equation, found, waiting, kept⟩
  | reduce other equation' foundOther =>
      by_cases same : other = number
      · subst same
        obtain rfl := Option.some.inj (found.symm.trans foundOther)
        refine ⟨state.reduced other equation, ?_, waiting, fun item open_ => kept item ?_⟩
        · exact List.getElem?_set_self (List.getElem?_eq_some_iff.mp found).1
        · rw [reduced, OrderedEquation.items_reduce] at open_
          exact List.mem_of_mem_filter open_
      · exact ⟨equation, (List.getElem?_set_ne same).trans found, waiting, kept⟩
  | compute other equation' item foundOther _ single unsettled =>
      by_cases same : other = number
      · subst same
        obtain rfl := Option.some.inj (found.symm.trans foundOther)
        have settled := Item.isSettled_of_place item (placed item (by simp [single]))
        simp [settled] at unsettled
      · exact ⟨equation, (List.getElem?_set_ne same).trans found, waiting, kept⟩

theorem BlockedAt.of_moves (moves : ReflTransGen (Move index) state next)
    (blocked : state.BlockedAt number) : next.BlockedAt number := by
  induction moves with
  | refl => exact blocked
  | tail _ move ih => exact ih.of_move move

theorem IsComplete.not_blocked (complete : state.IsComplete) : ¬state.Blocked := by
  rintro ⟨number, equation, found, waiting, -⟩
  have done := complete equation (List.mem_of_getElem? found)
  simp [waiting] at done

/-- Computing a class marks none. -/
theorem kind_of_compute {equation : OrderedEquation} {last record : Nat}
    (computable : (equation.resolved (state.registry.get last).kind).isComputable)
    (marked : ((state.compute number equation last).registry.get record).kind = .overconstrained) :
    (state.registry.get record).kind = .overconstrained := by
  by_cases same : last = record
  · subst same
    by_cases inside : last < state.registry.length
    · rw [get_compute_self inside] at marked
      rw [show equation.resolved _ = _ from marked] at computable
      cases computable
    · rw [compute, Registry.get_of_length_le (by simpa using inside)] at marked
      cases marked
  · rwa [get_compute_of_ne same] at marked

/-- A class with a place is none that should be a state. -/
theorem ne_shouldBeState_of_placed (ready : Start start)
    (moves : ReflTransGen (Move index) start state) {record : Nat}
    (placed : (state.registry.get record).place.isSome) :
    (start.registry.get record).kind ≠ .shouldBeState := by
  intro lost
  cases standing_of_moves ready moves record with
  | untouched _ place => simpa [lost] using (ready.placed record).mp (place ▸ placed)
  | twice given => cases lost.symm.trans given
  | value open_ => cases lost.symm.trans open_
  | rate isState => cases lost.symm.trans isState

/-- What no equation settles, although nothing else is left of an equation, is a class that
should be a state. -/
theorem kind_of_refused (ready : Start start) (moves : ReflTransGen (Move index) start state)
    {equation : OrderedEquation} (found : state.equations[number]? = some equation) {item : Item}
    (left : item ∈ (state.reduced number equation).items)
    (refused : ((state.reduced number equation).resolved
      (state.registry.get item.number).kind).isComputable = false) :
    (start.registry.get item.number).kind = .shouldBeState := by
  have unsettled := OrderedEquation.isSettled_of_mem_reduce _ _ _ left
  obtain ⟨origin, foundOrigin, -, -, items⟩ := origin_of_moves moves found
  rw [reduced, OrderedEquation.items_reduce] at left
  have asked := items.subset (List.mem_of_mem_filter left)
  have kept := ((standing_of_moves ready moves item.number).of_unplaced
    (fun given => (ready.placed item.number).mpr given) (Item.place_eq_none unsettled)).1
  have initial := ready.initial item.number
  have notOpen : ¬item.IsOpen state.registry := by
    intro open_
    rw [isComputable_of_isOpen open_] at refused
    cases refused
  cases item with
  | value record =>
      rw [Item.number_value] at kept initial ⊢
      simp only [Item.isSettled, Record.isKnown, Bool.or_eq_false_iff, kept] at unsettled
      simp only [Item.IsOpen, kept] at notOpen
      cases kind : (start.registry.get record).kind <;>
        simp_all [Kind.isInitial, Kind.isKnown]
  | rate record =>
      rw [Item.number_rate] at kept initial ⊢
      have differentiable := ready.differentiable origin (List.mem_of_getElem? foundOrigin) record
        (OrderedEquation.rate_mem_items.mp asked)
      simp only [Item.isSettled, Bool.or_eq_false_iff, kept] at unsettled
      simp only [Item.IsOpen, kept] at notOpen
      cases kind : (start.registry.get record).kind <;> simp_all [Kind.isInitial]

/-- An equation that waits for a single item had no other item from the start, or the class of the
item should be a state. -/
def WaitsAlone (start state : Elimination) : Prop :=
  ∀ (number : Nat) (equation : OrderedEquation) (item : Item),
    state.equations[number]? = some equation → equation.order = none → equation.items = [item] →
      (∃ source, start.equations[number]? = some source ∧ source.items = [item]) ∨
        (start.registry.get item.number).kind = .shouldBeState

theorem WaitsAlone.step (ready : Start start) (moves : ReflTransGen (Move index) start state)
    (alone : WaitsAlone start state) : WaitsAlone start (state.step index number).1 := by
  intro other equation item found waiting single
  have look : Look index state number (state.step index number) := look_step
  generalize state.step index number = outcome at look found
  cases look with
  | idle => exact alone other equation item found waiting single
  | twice => exact alone other equation item found waiting single
  | several before foundBefore _ several =>
      by_cases same : number = other
      · subst same
        rw [setEquation, List.getElem?_set_self (List.getElem?_eq_some_iff.mp foundBefore).1]
          at found
        obtain rfl := Option.some.inj found
        exact absurd single (several item)
      · rw [setEquation, List.getElem?_set_ne same] at found
        exact alone other equation item found waiting single
  | refused before last _ foundBefore _ singleLast _ refused =>
      by_cases same : number = other
      · subst same
        rw [report, setEquation,
          List.getElem?_set_self (List.getElem?_eq_some_iff.mp foundBefore).1] at found
        obtain rfl := Option.some.inj found
        obtain rfl : last = item := by simpa using singleLast.symm.trans single
        exact .inr (kind_of_refused ready moves foundBefore (by simp [singleLast]) refused)
      · rw [report, setEquation, List.getElem?_set_ne same] at found
        exact alone other equation item found waiting single
  | computed before last declaration foundBefore =>
      rw [compute_setEquation] at found
      by_cases same : number = other
      · subst same
        rw [compute, report,
          List.getElem?_set_self (List.getElem?_eq_some_iff.mp foundBefore).1] at found
        obtain rfl := Option.some.inj found
        cases waiting
      · rw [compute, report, List.getElem?_set_ne same] at found
        exact alone other equation item found waiting single

theorem waitsAlone_start : WaitsAlone start start :=
  fun _ equation _ found _ single => .inl ⟨equation, found, single⟩

/-- A class is marked for an equation that refers to nothing else, and that is blocked from then
on. -/
structure MarkedFor (start state : Elimination) (record : Nat) (number : Nat)
    (source : OrderedEquation) (item : Item) : Prop where
  found : start.equations[number]? = some source
  alone : source.items = [item]
  refers : item.number = record
  blocked : state.BlockedAt number

/-- A class is only marked for the sake of an equation. -/
theorem Loop.exists_markedFor (ready : Start start) (loop : Loop index start final) {record : Nat}
    (marked : (final.registry.get record).kind = .overconstrained) :
    ∃ number source item, MarkedFor start final record number source item := by
  let justified (state : Elimination) : Prop := WaitsAlone start state ∧
    ∀ record, (state.registry.get record).kind = .overconstrained →
      ∃ number source item, MarkedFor start state record number source item
  suffices holds : justified final from holds.2 record marked
  refine loop.induction justified ?_ .refl ⟨waitsAlone_start, ?_⟩
  · rintro state number before ⟨alone, each⟩
    refine ⟨alone.step ready before, fun record marked => ?_⟩
    have moves := moves_step index state number
    have kept (earlier : (state.registry.get record).kind = .overconstrained) :
        ∃ other source item,
          MarkedFor start (state.step index number).1 record other source item := by
      obtain ⟨other, source, item, justification⟩ := each record earlier
      exact ⟨other, source, item,
        { justification with blocked := justification.blocked.of_moves moves }⟩
    have look : Look index state number (state.step index number) := look_step
    generalize state.step index number = outcome at look moves marked kept
    cases look with
    | idle => exact kept marked
    | twice equation item found waiting single placed =>
        by_cases same : item.number = record
        -- This look sets the mark, and the equation that is looked at is the one to name for it.
        · rcases alone number equation item found waiting single with
            ⟨source, foundSource, only⟩ | lost
          · refine ⟨number, source, item, foundSource, only, same, ?_⟩
            refine ⟨equation, found, waiting, fun other open_ => ?_⟩
            obtain rfl : other = item := by simpa [single] using open_
            rw [place_mark]
            exact placed
          · exact absurd lost (ne_shouldBeState_of_placed ready before placed)
        · rw [mark, Registry.get_change_of_ne _ same] at marked
          exact kept marked
    | several => exact kept marked
    | refused =>
        rw [kind_report] at marked
        exact kept marked
    | computed equation item declaration found waiting single same computable =>
        have earlier := kind_of_compute (by rwa [kind_report]) marked
        rw [kind_report] at earlier
        exact kept earlier
  · intro record marked
    have initial := ready.initial record
    rw [marked] at initial
    cases initial

/-- A class is only marked for an equation that is blocked from then on. -/
theorem Loop.blocked (ready : Start start) (loop : Loop index start final) {record : Nat}
    (marked : (final.registry.get record).kind = .overconstrained) : final.Blocked := by
  obtain ⟨number, _, _, justification⟩ := loop.exists_markedFor ready marked
  exact ⟨number, justification.blocked⟩

/-- Where all equations have been given an order, no class is constrained twice. -/
theorem IsComplete.kind_ne_overconstrained (complete : final.IsComplete) (ready : Start start)
    (loop : Loop index start final) (record : Nat) :
    (final.registry.get record).kind ≠ .overconstrained :=
  fun marked => complete.not_blocked (loop.blocked ready marked)

/-! ## Rates -/

/-- An equation that refers to a rate counts as dependent on one from the first look at it. -/
theorem Loop.rateBased_of_rate (ready : Start start) (loop : Loop index start final)
    {source equation : OrderedEquation} (foundSource : start.equations[number]? = some source)
    (found : final.equations[number]? = some equation) (done : equation.order.isSome)
    {record : Nat} (asked : .rate record ∈ source.items) : equation.rateBased := by
  let noted (state : Elimination) : Prop := ∀ equation, state.equations[number]? = some equation →
    equation.rateBased ∨ equation.order = none ∧ .rate record ∈ equation.items
  have final_noted : noted final := by
    refine loop.induction noted ?_ .refl ?_
    · intro state other moves noted equation found
      rcases equation_step found with kept | ⟨before, foundBefore, waiting, change⟩
      · exact noted equation kept
      · refine Or.inl ?_
        have reduced : (state.reduced number before).rateBased := by
          rcases noted before foundBefore with flag | ⟨-, open_⟩
          · simp [reduced, OrderedEquation.reduce, OrderedEquation.noteKinds,
              OrderedEquation.eliminate, flag]
          · have differentiated := List.ne_nil_of_mem (OrderedEquation.rate_mem_items.mp open_)
            simp [reduced, OrderedEquation.reduce, OrderedEquation.noteKinds,
              OrderedEquation.eliminate, differentiated]
        rcases change with rfl | ⟨_, _, _, rfl⟩
        · exact reduced
        · exact reduced
    · intro equation found
      obtain rfl := Option.some.inj (foundSource.symm.trans found)
      exact Or.inr ⟨ready.waiting (List.mem_of_getElem? found), asked⟩
  rcases final_noted equation found with flag | ⟨waiting, -⟩
  · exact flag
  · simp [waiting] at done

end Elimination

end ComponentModel.Analysis
