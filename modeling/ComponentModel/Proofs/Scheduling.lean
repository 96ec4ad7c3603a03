import ComponentModel.Code.Schedule
import Mathlib.Data.List.Induction
import Mathlib.Data.List.Nodup
import Mathlib.Logic.Relation

/-!
# Evaluation after what is needed

A schedule evaluates the equation of a place after those that it depends on. Every place then
stands behind all that it needs, as long as dependencies lead to lower ranks only, and whatever is
needed beyond the dependencies that are followed has been evaluated before.
-/

namespace ComponentModel.Code

open Analysis (AnalysedEquation AnalysedModel EquationKind)

/-! ## Complete lists -/

/-- Everything that a place of a list needs stands before it. -/
def Complete (needs : Nat → Nat → Prop) (places : Places) : Prop :=
  ∀ before place after, places = before ++ place :: after →
    ∀ needed, needs place needed → needed ∈ before

variable {needs : Nat → Nat → Prop} {reach : Nat → Prop}

theorem Complete.nil : Complete needs [] := by
  intro before place after equal
  simp at equal

/-- A place may be added once all that it needs is there. -/
theorem Complete.snoc {places : Places} {last : Nat} (complete : Complete needs places)
    (given : ∀ needed, needs last needed → needed ∈ places) :
    Complete needs (places ++ [last]) := by
  intro before place after equal
  rcases List.eq_nil_or_concat after with rfl | ⟨front, final, rfl⟩
  · obtain ⟨rfl, same⟩ := List.append_inj' equal rfl
    obtain rfl : last = place := by simpa using same
    exact given
  · have split : places ++ [last] = (before ++ place :: front) ++ [final] := by simpa using equal
    obtain ⟨rfl, -⟩ := List.append_inj' split rfl
    exact complete before place front rfl

/-- What a place of a complete list needs, directly or through others, stands in the list too. -/
theorem Complete.mem_of_reflTransGen {places : Places} (complete : Complete needs places)
    {place other : Nat} (membership : place ∈ places)
    (reaches : Relation.ReflTransGen needs place other) : other ∈ places := by
  induction reaches with
  | refl => exact membership
  | tail _ step ih =>
      obtain ⟨before, after, rfl⟩ := List.append_of_mem ih
      exact List.mem_append_left _ (complete before _ after rfl _ step)

/-- A part of a complete list is complete for what stands in this part. -/
theorem Complete.part {front places back : Places}
    (complete : Complete needs (front ++ places ++ back)) (once : (front ++ places ++ back).Nodup) :
    Complete (fun place needed => needs place needed ∧ needed ∈ places) places := by
  rintro before place after rfl needed ⟨isNeeded, inside⟩
  have earlier : needed ∈ front ++ before :=
    complete (front ++ before) place (after ++ back) (by simp) needed isNeeded
  have apart := List.disjoint_of_nodup_append once.of_append_left
  exact (List.mem_append.mp earlier).resolve_left fun outside => apart outside inside

/-- In a complete list without repetition, nothing needs what stands behind it. -/
theorem Complete.pairwise {places : Places}
    (complete : Complete (fun place needed => needs place needed ∧ needed ∈ places) places)
    (once : places.Nodup) :
    places.Pairwise fun earlier later => earlier ≠ later ∧ ¬needs earlier later := by
  rw [List.pairwise_iff_forall_sublist]
  intro earlier later sublist
  obtain ⟨front, back, rfl, inFront, rest⟩ := List.cons_sublist_iff.mp sublist
  have inBack := List.singleton_sublist.mp rest
  have apart := List.disjoint_of_nodup_append once
  refine ⟨?_, fun isNeeded => ?_⟩
  · rintro rfl
    exact apart inFront inBack
  · obtain ⟨before, after, rfl⟩ := List.append_of_mem inFront
    have stands : later ∈ before :=
      complete before earlier (after ++ back) (by simp) later ⟨isNeeded, by simp [inBack]⟩
    exact apart (List.mem_append_left _ stands) inBack

/-! ## One evaluation -/

/-- What an evaluation makes of the places that are evaluated already. -/
structure Evaluates (needs : Nat → Nat → Prop) (reach : Nat → Prop) (evaluated result : Places) :
    Prop where
  longer : evaluated <+: result
  complete : Complete needs result
  reached : ∀ place ∈ result, place ∈ evaluated ∨ reach place

namespace Evaluates

variable {evaluated middle result : Places}

theorem refl (complete : Complete needs evaluated) : Evaluates needs reach evaluated evaluated :=
  ⟨List.prefix_refl _, complete, fun _ => Or.inl⟩

theorem trans (first : Evaluates needs reach evaluated middle)
    (second : Evaluates needs reach middle result) : Evaluates needs reach evaluated result where
  longer := first.longer.trans second.longer
  complete := second.complete
  reached := by
    intro place membership
    rcases second.reached place membership with earlier | new
    · exact first.reached place earlier
    · exact Or.inr new

theorem mono {larger : Nat → Prop} (evaluates : Evaluates needs reach evaluated result)
    (within : ∀ place, reach place → larger place) : Evaluates needs larger evaluated result :=
  ⟨evaluates.longer, evaluates.complete,
    fun place membership => (evaluates.reached place membership).imp_right (within place)⟩

/-- Steps that each evaluate what is wanted of them evaluate all that is wanted. -/
theorem foldl {α : Type} (step : Places → α → Places) (wanted : α → Nat → Prop)
    (items : List α) (complete : Complete needs evaluated)
    (each : ∀ front item back, items = front ++ item :: back → ∀ between,
      evaluated <+: between → Complete needs between →
      (∀ earlier ∈ front, ∀ place, wanted earlier place → place ∈ between) →
      Evaluates needs reach between (step between item) ∧
        ∀ place, wanted item place → place ∈ step between item) :
    Evaluates needs reach evaluated (items.foldl step evaluated) ∧
      ∀ item ∈ items, ∀ place, wanted item place → place ∈ items.foldl step evaluated := by
  induction items using List.reverseRecOn with
  | nil => exact ⟨.refl complete, by simp⟩
  | append_singleton front last ih =>
      obtain ⟨before, done⟩ := ih fun earlier item back equal =>
        each earlier item (back ++ [last]) (by simp [equal])
      obtain ⟨step, new⟩ :=
        each front last [] rfl _ before.longer before.complete done
      rw [List.foldl_append]
      refine ⟨before.trans step, ?_⟩
      intro item membership place wants
      rcases List.mem_append.mp membership with earlier | isLast
      · exact step.longer.subset (done item earlier place wants)
      · obtain rfl := List.mem_singleton.mp isLast
        exact new place wants

end Evaluates

/-- The equation of a place depends on that of another place, which is followed. -/
def DependsOn (equations : List AnalysedEquation) (followed : AnalysedEquation → Bool)
    (place dependency : Nat) : Prop :=
  ∃ equation other, equations[place]? = some equation ∧ dependency ∈ equation.dependencies ∧
    equations[dependency]? = some other ∧ followed other

variable {equations : List AnalysedEquation} {followed : AnalysedEquation → Bool}
  {rank : Nat → Nat}

theorem isAwaited_iff {evaluated : Places} {place : Nat} :
    isAwaited equations followed evaluated place ↔
      (∃ other, equations[place]? = some other ∧ followed other) ∧ place ∉ evaluated := by
  unfold isAwaited
  cases equations[place]? <;> simp

/-- Evaluation is able to complete the places that it reaches. -/
structure Completable (equations : List AnalysedEquation) (followed : AnalysedEquation → Bool)
    (rank : Nat → Nat) (needs : Nat → Nat → Prop) (reach : Nat → Prop) (evaluated : Places) :
    Prop where
  follows : ∀ place dependency, reach place → DependsOn equations followed place dependency →
    reach dependency ∧ rank dependency < rank place
  given : ∀ place needed, reach place → needs place needed →
    needed ∈ evaluated ∨ DependsOn equations followed place needed

theorem Completable.mono {evaluated longer : Places}
    (completable : Completable equations followed rank needs reach evaluated)
    (extends_ : evaluated <+: longer) :
    Completable equations followed rank needs reach longer :=
  ⟨completable.follows, fun place needed reached needs =>
    (completable.given place needed reached needs).imp_left fun before => extends_.subset before⟩

/-- Evaluation completes a place with all that it needs. -/
theorem evaluates_evaluate {evaluated : Places} {depth place : Nat}
    (completable : Completable equations followed rank needs reach evaluated)
    (complete : Complete needs evaluated) (reached : reach place)
    (inside : place < equations.length) (deep : rank place < depth) :
    Evaluates needs reach evaluated (evaluate equations followed depth place evaluated) ∧
      place ∈ evaluate equations followed depth place evaluated := by
  induction depth generalizing place evaluated with
  | zero => omega
  | succ depth ih =>
      have found := List.getElem?_eq_getElem inside
      rw [evaluate, found]
      simp only
      -- The dependencies that are followed lead to lower ranks, so they are completed first.
      obtain ⟨before, done⟩ := Evaluates.foldl
        (fun evaluated dependency =>
          if isAwaited equations followed evaluated dependency then
            evaluate equations followed depth dependency evaluated
          else evaluated)
        (fun dependency wanted => wanted = dependency ∧
          DependsOn equations followed place dependency)
        equations[place].dependencies complete fun front dependency back split between longer
            completeBetween _ => by
          have depends (isFollowed : ∃ other, equations[dependency]? = some other ∧
              followed other) : DependsOn equations followed place dependency := by
            obtain ⟨other, foundOther, isFollowed⟩ := isFollowed
            exact ⟨_, other, found, by simp [split], foundOther, isFollowed⟩
          split
          case isTrue awaited =>
            obtain ⟨isFollowed, -⟩ := isAwaited_iff.mp awaited
            obtain ⟨below, lower⟩ := completable.follows place dependency reached
              (depends isFollowed)
            obtain ⟨other, foundOther, -⟩ := isFollowed
            obtain ⟨evaluates, new⟩ := ih (completable.mono longer) completeBetween below
              (List.getElem?_eq_some_iff.mp foundOther).1 (by omega)
            refine ⟨evaluates, ?_⟩
            rintro wanted ⟨rfl, -⟩
            exact new
          case isFalse idle =>
            refine ⟨.refl completeBetween, ?_⟩
            rintro wanted ⟨rfl, _, other, _, _, foundOther, isFollowed⟩
            by_contra missing
            exact idle (isAwaited_iff.mpr ⟨⟨other, foundOther, isFollowed⟩, missing⟩)
      split
      case isTrue present => exact ⟨before, by simpa using present⟩
      case isFalse =>
        refine ⟨before.trans ⟨List.prefix_append _ _, before.complete.snoc ?_, ?_⟩, by simp⟩
        · intro needed needs
          rcases completable.given place needed reached needs with earlier | depends
          · exact before.longer.subset earlier
          · obtain ⟨equation, other, found', membership, rest⟩ := depends
            obtain rfl := Option.some.inj (found.symm.trans found')
            exact done needed membership needed ⟨rfl, _, other, found, membership, rest⟩
        · intro other membership
          rcases List.mem_append.mp membership with earlier | new
          · exact Or.inl earlier
          · exact Or.inr (List.mem_singleton.mp new ▸ reached)

/-- Evaluation does not repeat what is evaluated already. -/
theorem nodup_evaluate (depth place : Nat) {evaluated : Places} (once : evaluated.Nodup) :
    (evaluate equations followed depth place evaluated).Nodup := by
  induction depth generalizing place evaluated with
  | zero => exact once
  | succ depth ih =>
      rw [evaluate]
      split
      case h_1 => exact once
      case h_2 equation _ =>
        generalize folded : equation.dependencies.foldl _ evaluated = between
        have before : between.Nodup := by
          rw [← folded]
          refine List.foldlRecOn _ _ once fun partly once dependency _ => ?_
          split
          · exact ih dependency once
          · exact once
        simp only
        split
        case isTrue => exact before
        case isFalse missing =>
          refine before.append (List.nodup_singleton place) ?_
          simpa using missing

/-! ## All evaluations of a procedure -/

/-- The equation of a place is accepted. -/
def Accepted (equations : List AnalysedEquation) (accept : Nat → AnalysedEquation → Bool)
    (place : Nat) : Prop :=
  ∃ equation, equations[place]? = some equation ∧ accept place equation

/-- One step of a procedure evaluates the equation that it comes to, if that is accepted. -/
theorem evaluates_root {accept : Nat → AnalysedEquation → Bool} {evaluated : Places} {root : Nat}
    {equation : AnalysedEquation} (complete : Complete needs evaluated)
    (bounded : ∀ place < equations.length, rank place < equations.length)
    (found : equations[root]? = some equation)
    (completable : Accepted equations accept root →
      reach root ∧ Completable equations followed rank needs reach evaluated) :
    let result :=
      if accept root equation then
        evaluate equations followed (equations.length + 1) root evaluated
      else evaluated
    Evaluates needs (fun place => Accepted equations accept root ∧ reach place) evaluated result ∧
      (accept root equation → root ∈ result) := by
  intro result
  by_cases accepted : accept root equation
  · have isRoot : Accepted equations accept root := ⟨equation, found, accepted⟩
    obtain ⟨reached, completable⟩ := completable isRoot
    have inside := (List.getElem?_eq_some_iff.mp found).1
    obtain ⟨evaluates, new⟩ := evaluates_evaluate completable complete reached inside
      (Nat.lt_succ_of_lt (bounded root inside))
    simp only [result, accepted, if_true]
    exact ⟨evaluates.mono fun place reached => ⟨isRoot, reached⟩, fun _ => new⟩
  · simp only [result, accepted]
    exact ⟨.refl complete, fun impossible => absurd impossible (by simp)⟩

theorem getElem?_of_zipIdx_split {front back : List (AnalysedEquation × Nat)}
    {entry : AnalysedEquation × Nat} (split : equations.zipIdx = front ++ entry :: back) :
    entry.2 = front.length ∧ equations[entry.2]? = some entry.1 := by
  have found : equations.zipIdx[front.length]? = some entry := by simp [split]
  rw [List.getElem?_zipIdx, Option.map_eq_some_iff] at found
  obtain ⟨equation, found, rfl⟩ := found
  simp only [Nat.zero_add, and_self, found]

/-- The equations at smaller places stand before the one that a list is split at. -/
theorem mem_of_zipIdx_split {front back : List (AnalysedEquation × Nat)}
    {entry : AnalysedEquation × Nat} (split : equations.zipIdx = front ++ entry :: back)
    {place : Nat} (before : place < entry.2) {equation : AnalysedEquation}
    (found : equations[place]? = some equation) : (equation, place) ∈ front := by
  have listed : (front ++ entry :: back)[place]? = some (equation, place) := by
    rw [← split, List.getElem?_zipIdx, found]
    simp
  rw [(getElem?_of_zipIdx_split split).1] at before
  rw [List.getElem?_append_left before] at listed
  exact List.mem_of_getElem? listed

theorem nodup_evaluateWhere (followed : AnalysedEquation → Bool)
    (accept : Nat → AnalysedEquation → Bool) {evaluated : Places} (once : evaluated.Nodup) :
    (Schedule.evaluateWhere equations followed accept evaluated).Nodup := by
  refine List.foldlRecOn _ _ once fun partly once entry _ => ?_
  split
  · exact nodup_evaluate _ entry.2 once
  · exact once

/-- A procedure evaluates all accepted equations after what they need. What it reaches may depend
on the accepted equation that it starts from; those at smaller places have been evaluated. -/
theorem evaluates_evaluateWhere (followed : AnalysedEquation → Bool)
    (accept : Nat → AnalysedEquation → Bool) (reach : Nat → Nat → Prop) {evaluated : Places}
    (complete : Complete needs evaluated)
    (bounded : ∀ place < equations.length, rank place < equations.length)
    (roots : ∀ root, Accepted equations accept root → reach root root)
    (completable : ∀ root between, Accepted equations accept root → evaluated <+: between →
      (∀ earlier < root, Accepted equations accept earlier → earlier ∈ between) →
      Completable equations followed rank needs (reach root) between) :
    Evaluates needs (fun place => ∃ root, Accepted equations accept root ∧ reach root place)
        evaluated (Schedule.evaluateWhere equations followed accept evaluated) ∧
      ∀ place, Accepted equations accept place →
        place ∈ Schedule.evaluateWhere equations followed accept evaluated := by
  have each : ∀ front entry back, equations.zipIdx = front ++ entry :: back → ∀ between,
      evaluated <+: between → Complete needs between →
      (∀ earlier ∈ front, ∀ place, place = earlier.2 ∧ accept earlier.2 earlier.1 →
        place ∈ between) →
      let result :=
        if accept entry.2 entry.1 then
          evaluate equations followed (equations.length + 1) entry.2 between
        else between
      Evaluates needs (fun place => ∃ root, Accepted equations accept root ∧ reach root place)
          between result ∧
        ∀ place, place = entry.2 ∧ accept entry.2 entry.1 → place ∈ result := by
    intro front entry back split between longer completeBetween earlier
    obtain ⟨-, found⟩ := getElem?_of_zipIdx_split split
    obtain ⟨evaluates, new⟩ := evaluates_root completeBetween bounded found fun isRoot =>
      ⟨roots entry.2 isRoot, completable entry.2 between isRoot longer
        fun place before ⟨equation, foundPlace, accepted⟩ =>
          earlier _ (mem_of_zipIdx_split split before foundPlace) place ⟨rfl, accepted⟩⟩
    refine ⟨evaluates.mono fun place reached => ⟨entry.2, reached⟩, ?_⟩
    rintro place ⟨rfl, accepted⟩
    exact new accepted
  obtain ⟨evaluates, done⟩ := Evaluates.foldl _ _ equations.zipIdx complete each
  refine ⟨evaluates, ?_⟩
  rintro place ⟨equation, found, accepted⟩
  refine done (equation, place) ?_ place ⟨rfl, accepted⟩
  rw [List.mem_zipIdx_iff_getElem?]
  exact found

/-! ## The procedures of a model -/

/-- The equation of a place is of a kind. -/
def IsKind (equations : List AnalysedEquation) (kind : EquationKind) (place : Nat) : Prop :=
  ∃ equation, equations[place]? = some equation ∧ equation.kind = kind

/-- The equation of a place refers to constants at most. -/
def IsConstant (equations : List AnalysedEquation) (place : Nat) : Prop :=
  IsKind equations .trueConstant place ∨ IsKind equations .variableBasedConstant place

theorem IsKind.eq {equations : List AnalysedEquation} {kind other : EquationKind} {place : Nat}
    (is : IsKind equations kind place) (isOther : IsKind equations other place) : kind = other := by
  obtain ⟨equation, found, rfl⟩ := is
  obtain ⟨_, found', rfl⟩ := isOther
  rw [Option.some.inj (found.symm.trans found')]

/-- Equations are accepted for their kind. -/
theorem accepted_kind_iff {kind : EquationKind} {place : Nat} :
    Accepted equations (fun _ equation => equation.kind == kind) place ↔
      IsKind equations kind place := by
  simp [Accepted, IsKind]

/-- Equations whose dependencies lead to lower ranks, and among which the rates and the algebraic
variables are listed by their ranks. -/
structure Ranked (equations : List AnalysedEquation) (rank : Nat → Nat) : Prop where
  bounded : ∀ place < equations.length, rank place < equations.length
  lower : ∀ place dependency, DependsOn equations (fun _ => true) place dependency →
    rank dependency < rank place
  constant : ∀ place dependency, DependsOn equations (fun _ => true) place dependency →
    IsConstant equations place → IsConstant equations dependency
  kinds : ∀ equation ∈ equations, equation.kind ≠ .unknown
  listed : ∀ kind place other, kind = .rate ∨ kind = .algebraic → IsKind equations kind place →
    IsKind equations kind other → rank place < rank other → place < other

/-- Rates and algebraic variables are no constants. -/
theorem IsKind.not_isConstant {kind : EquationKind} {place : Nat} (is : IsKind equations kind place)
    (varies : kind = .rate ∨ kind = .algebraic) : ¬IsConstant equations place := by
  rintro (isTrue | isBased)
  · obtain rfl := is.eq isTrue
    simp at varies
  · obtain rfl := is.eq isBased
    simp at varies

/-- Every equation is that of a constant, of a rate or of an algebraic variable. -/
theorem Ranked.isKind_cases (ranked : Ranked equations rank) {place : Nat}
    {equation : AnalysedEquation} (found : equations[place]? = some equation) :
    IsConstant equations place ∨ IsKind equations .rate place ∨
      IsKind equations .algebraic place := by
  have known := ranked.kinds equation (List.mem_of_getElem? found)
  have is : IsKind equations equation.kind place := ⟨equation, found, rfl⟩
  cases kind : equation.kind with
  | unknown => exact absurd kind known
  | trueConstant => exact Or.inl (Or.inl (kind ▸ is))
  | variableBasedConstant => exact Or.inl (Or.inr (kind ▸ is))
  | rate => exact Or.inr (Or.inl (kind ▸ is))
  | algebraic => exact Or.inr (Or.inr (kind ▸ is))

/-- What an equation needs before the rates are computed: what it depends on, and the rates of
lower rank unless it is a constant. -/
def NeedsRates (equations : List AnalysedEquation) (rank : Nat → Nat) (place needed : Nat) : Prop :=
  DependsOn equations (fun _ => true) place needed ∨
    ¬IsConstant equations place ∧ IsKind equations .rate needed ∧ rank needed < rank place

theorem DependsOn.exists_other {place dependency : Nat}
    (depends : DependsOn equations followed place dependency) :
    ∃ other, equations[dependency]? = some other := by
  obtain ⟨_, other, _, _, foundOther, -⟩ := depends
  exact ⟨other, foundOther⟩

theorem DependsOn.all {place dependency : Nat}
    (depends : DependsOn equations followed place dependency) :
    DependsOn equations (fun _ => true) place dependency := by
  obtain ⟨equation, other, found, membership, foundOther, -⟩ := depends
  exact ⟨equation, other, found, membership, foundOther, rfl⟩

namespace Schedule

/-- The equations that are evaluated before other variables are computed. -/
def early (schedule : Schedule) : Places :=
  schedule.initialise ++ schedule.computedConstants ++ schedule.rates

/-- The equations of a constant kind, evaluated after those of another one. -/
theorem evaluates_constants (ranked : Ranked equations rank) {kind : EquationKind}
    (constant : kind = .trueConstant ∨ kind = .variableBasedConstant) {evaluated : Places}
    (complete : Complete (NeedsRates equations rank) evaluated) :
    Evaluates (NeedsRates equations rank) (IsConstant equations) evaluated
        (evaluateKind equations kind evaluated) ∧
      ∀ place, IsKind equations kind place → place ∈ evaluateKind equations kind evaluated := by
  have isConstant : ∀ place, IsKind equations kind place → IsConstant equations place := by
    rintro place is
    rcases constant with rfl | rfl
    · exact Or.inl is
    · exact Or.inr is
  obtain ⟨evaluates, done⟩ := evaluates_evaluateWhere (fun _ => true)
    (fun _ equation => equation.kind == kind) (fun _ => IsConstant equations) complete
    ranked.bounded (fun root accepted => isConstant root (accepted_kind_iff.mp accepted))
    fun root between _ _ _ =>
      { follows := fun place dependency is depends =>
          ⟨ranked.constant place dependency depends is, ranked.lower place dependency depends⟩
        given := by
          rintro place needed is (depends | ⟨not, -⟩)
          · exact Or.inr depends
          · exact absurd is not }
  refine ⟨evaluates.mono fun place ⟨_, _, is⟩ => is, fun place is => ?_⟩
  exact done place (accepted_kind_iff.mpr is)

/-- The equations of rates, evaluated after the constants. -/
theorem evaluates_rates (ranked : Ranked equations rank) {evaluated : Places}
    (complete : Complete (NeedsRates equations rank) evaluated) :
    Evaluates (NeedsRates equations rank) (fun _ => True) evaluated
        (evaluateKind equations .rate evaluated) ∧
      ∀ place, IsKind equations .rate place → place ∈ evaluateKind equations .rate evaluated := by
  obtain ⟨evaluates, done⟩ := evaluates_evaluateWhere (fun _ => true)
    (fun _ equation => equation.kind == .rate) (fun root place => rank place ≤ rank root)
    complete ranked.bounded (fun _ _ => Nat.le_refl _)
    fun root between accepted longer smaller =>
      { follows := fun place dependency below depends =>
          have lower := ranked.lower place dependency depends
          ⟨Nat.le_trans (Nat.le_of_lt lower) below, lower⟩
        given := by
          -- A rate of lower rank is listed before the rate that the evaluation starts from.
          rintro place needed below (depends | ⟨-, isRate, lower⟩)
          · exact Or.inr depends
          · have before := ranked.listed .rate needed root (Or.inl rfl) isRate
              (accepted_kind_iff.mp accepted) (Nat.lt_of_lt_of_le lower below)
            exact Or.inl (smaller needed before (accepted_kind_iff.mpr isRate)) }
  exact ⟨evaluates.mono fun _ _ => trivial,
    fun place is => done place (accepted_kind_iff.mpr is)⟩

theorem early_eq {analysed : AnalysedModel} (ranked : Ranked analysed.equations rank) :
    (ofModel analysed).early =
      let constants := evaluateKind analysed.equations .variableBasedConstant
        (evaluateKind analysed.equations .trueConstant [])
      if analysed.type == .ode then evaluateKind analysed.equations .rate constants
      else constants := by
  obtain ⟨first, -⟩ := evaluates_constants ranked (Or.inl rfl) .nil
  obtain ⟨second, -⟩ := evaluates_constants ranked (Or.inr rfl) first.complete
  obtain ⟨third, -⟩ := evaluates_rates ranked second.complete
  simp only [early, ofModel]
  rw [List.prefix_iff_eq_append.mp second.longer]
  split
  · exact List.prefix_iff_eq_append.mp third.longer
  · simp

/-- What is evaluated before the other variables is complete, and holds all constants and, if
there is a time, all rates. -/
theorem early_spec {analysed : AnalysedModel} (ranked : Ranked analysed.equations rank)
    (timed : analysed.type = .ode ∨ ∀ place, ¬IsKind analysed.equations .rate place) :
    Complete (NeedsRates analysed.equations rank) (ofModel analysed).early ∧
      ∀ place, IsConstant analysed.equations place ∨ IsKind analysed.equations .rate place →
        place ∈ (ofModel analysed).early := by
  obtain ⟨first, hasTrue⟩ := evaluates_constants ranked (Or.inl rfl) .nil
  obtain ⟨second, hasBased⟩ := evaluates_constants ranked (Or.inr rfl) first.complete
  obtain ⟨third, hasRates⟩ := evaluates_rates ranked second.complete
  have hasConstants : ∀ place, IsConstant analysed.equations place →
      place ∈ evaluateKind analysed.equations .variableBasedConstant
        (evaluateKind analysed.equations .trueConstant []) := by
    rintro place (isTrue | isBased)
    · exact second.longer.subset (hasTrue place isTrue)
    · exact hasBased place isBased
  rw [early_eq ranked]
  simp only
  split
  case isTrue =>
    refine ⟨third.complete, ?_⟩
    rintro place (isConstant | isRate)
    · exact third.longer.subset (hasConstants place isConstant)
    · exact hasRates place isRate
  case isFalse untimed =>
    refine ⟨second.complete, ?_⟩
    rintro place (isConstant | isRate)
    · exact hasConstants place isConstant
    · rcases timed with ode | none
      · simp [ode] at untimed
      · exact absurd isRate (none place)

/-- The equations of a kind are evaluated with all that they depend on, and nothing else is. -/
theorem evaluates_kind (ranked : Ranked equations rank) (kind : EquationKind) {evaluated : Places}
    (complete : Complete (DependsOn equations fun _ => true) evaluated) :
    Evaluates (DependsOn equations fun _ => true)
        (fun place => ∃ root, IsKind equations kind root ∧
          Relation.ReflTransGen (DependsOn equations fun _ => true) root place)
        evaluated (evaluateKind equations kind evaluated) ∧
      ∀ root place, IsKind equations kind root →
        Relation.ReflTransGen (DependsOn equations fun _ => true) root place →
          place ∈ evaluateKind equations kind evaluated := by
  obtain ⟨evaluates, done⟩ := evaluates_evaluateWhere (fun _ => true)
    (fun _ equation => equation.kind == kind)
    (Relation.ReflTransGen (DependsOn equations fun _ => true)) complete ranked.bounded
    (fun _ _ => .refl)
    fun root between _ _ _ =>
      { follows := fun place dependency reaches depends =>
          ⟨reaches.tail depends, ranked.lower place dependency depends⟩
        given := fun _ _ _ => Or.inr }
  refine ⟨evaluates.mono ?_, fun root place is reaches => ?_⟩
  · rintro place ⟨root, accepted, reaches⟩
    exact ⟨root, accepted_kind_iff.mp accepted, reaches⟩
  · exact evaluates.complete.mem_of_reflTransGen (done root (accepted_kind_iff.mpr is)) reaches

/-- Where true constants depend on nothing, they are all that is evaluated first. -/
theorem mem_initialise_iff {analysed : AnalysedModel} (ranked : Ranked analysed.equations rank)
    (alone : ∀ place dependency, IsKind analysed.equations .trueConstant place →
      ¬DependsOn analysed.equations (fun _ => true) place dependency) {place : Nat} :
    place ∈ (ofModel analysed).initialise ↔ IsKind analysed.equations .trueConstant place := by
  obtain ⟨evaluates, done⟩ := evaluates_kind ranked .trueConstant .nil
  constructor
  · intro membership
    obtain ⟨root, isTrue, reaches⟩ :=
      (evaluates.reached place membership).resolve_left (by simp)
    rcases reaches.cases_head with rfl | ⟨dependency, depends, -⟩
    · exact isTrue
    · exact absurd depends (alone root dependency isTrue)
  · exact fun isTrue => done place place isTrue .refl

/-- What an equation needs while other variables are computed: what it depends on, unless that is
evaluated already. -/
def NeedsOthers (equations : List AnalysedEquation) (early : Places) (place needed : Nat) : Prop :=
  DependsOn equations (fun _ => true) place needed ∧ needed ∉ early

/-- Whether an equation is evaluated for the other variables on its own account. -/
def isOther (early : Places) (place : Nat) (equation : AnalysedEquation) : Bool :=
  !early.contains place || isFresh equation

theorem isOther_iff {early : Places} {place : Nat} {equation : AnalysedEquation} :
    isOther early place equation ↔ place ∉ early ∨ isFresh equation := by
  simp [isOther]

/-- The equations that are evaluated for the other variables compute algebraic variables. -/
theorem isKind_of_isOther (ranked : Ranked equations rank) {early : Places}
    (evaluated : ∀ place, IsConstant equations place ∨ IsKind equations .rate place →
      place ∈ early) {place : Nat} (accepted : Accepted equations (isOther early) place) :
    IsKind equations .algebraic place := by
  obtain ⟨equation, found, accepted⟩ := accepted
  rcases isOther_iff.mp accepted with late | fresh
  · rcases ranked.isKind_cases found with constant | isRate | isAlgebraic
    · exact absurd (evaluated place (Or.inl constant)) late
    · exact absurd (evaluated place (Or.inr isRate)) late
    · exact isAlgebraic
  · simp only [isFresh, Bool.and_eq_true, beq_iff_eq] at fresh
    exact ⟨equation, found, fresh.1⟩

theorem otherVariables_eq {analysed : AnalysedModel} (ranked : Ranked analysed.equations rank) :
    (ofModel analysed).otherVariables =
      evaluateWhere analysed.equations isFresh (isOther (ofModel analysed).early) [] := by
  rw [early_eq ranked]
  rfl

/-- Exactly the accepted equations are evaluated for the other variables, each after those of them
that it depends on. -/
theorem evaluates_otherVariables {analysed : AnalysedModel}
    (ranked : Ranked analysed.equations rank)
    (timed : analysed.type = .ode ∨ ∀ place, ¬IsKind analysed.equations .rate place) :
    Complete (fun place needed => DependsOn analysed.equations (fun _ => true) place needed ∧
        Accepted analysed.equations (isOther (ofModel analysed).early) needed)
        (ofModel analysed).otherVariables ∧
      ∀ place, place ∈ (ofModel analysed).otherVariables ↔
        Accepted analysed.equations (isOther (ofModel analysed).early) place := by
  obtain ⟨-, evaluated⟩ := early_spec ranked timed
  rw [otherVariables_eq ranked]
  generalize (ofModel analysed).early = early at evaluated
  have algebraic : ∀ {place}, Accepted analysed.equations (isOther early) place →
      IsKind analysed.equations .algebraic place := isKind_of_isOther ranked evaluated
  have nothing : Complete (fun place needed =>
      DependsOn analysed.equations (fun _ => true) place needed ∧
        Accepted analysed.equations (isOther early) needed) [] := .nil
  obtain ⟨evaluates, done⟩ := evaluates_evaluateWhere isFresh (isOther early)
    (fun root place => Accepted analysed.equations (isOther early) place ∧ rank place ≤ rank root)
    nothing ranked.bounded (fun root accepted => ⟨accepted, Nat.le_refl _⟩)
    fun root between accepted _ smaller =>
      { follows := by
          rintro place dependency ⟨-, below⟩ depends
          have lower := ranked.lower place dependency depends.all
          obtain ⟨_, other, _, _, found, fresh⟩ := depends
          exact ⟨⟨⟨other, found, isOther_iff.mpr (Or.inr fresh)⟩, by omega⟩, lower⟩
        given := by
          -- What is accepted is listed before the equation that the evaluation starts from.
          rintro place needed ⟨-, below⟩ ⟨depends, acceptedNeeded⟩
          have lower := ranked.lower place needed depends
          have before := ranked.listed .algebraic needed root (Or.inr rfl)
            (algebraic acceptedNeeded) (algebraic accepted) (Nat.lt_of_lt_of_le lower below)
          exact Or.inl (smaller needed before acceptedNeeded) }
  refine ⟨evaluates.complete, fun place => ⟨fun membership => ?_, done place⟩⟩
  obtain ⟨_, -, accepted, -⟩ := (evaluates.reached place membership).resolve_left (by simp)
  exact accepted

/-- What is evaluated for the other variables is complete. -/
theorem otherVariables_spec {analysed : AnalysedModel} (ranked : Ranked analysed.equations rank)
    (timed : analysed.type = .ode ∨ ∀ place, ¬IsKind analysed.equations .rate place) :
    Complete (NeedsOthers analysed.equations (ofModel analysed).early)
      (ofModel analysed).otherVariables := by
  obtain ⟨complete, -⟩ := evaluates_otherVariables ranked timed
  rintro before place after equal needed ⟨depends, late⟩
  obtain ⟨other, found⟩ := depends.exists_other
  exact complete before place after equal needed
    ⟨depends, other, found, isOther_iff.mpr (Or.inl late)⟩

end Schedule

end ComponentModel.Code
