import ComponentModel.Proofs.Dataflow

/-!
# Dependencies of reported equations

A reported equation lists the places of the equations that it depends on, each of them once.
Together they compute everything that the equation refers to and that is not available without
equations. No equation depends on itself, directly or through others, so the recursion over
dependencies that writes the equations down comes to an end: the depth at which an evaluation
stops on its own account is never reached.
-/

namespace ComponentModel

namespace Code

open Analysis (AnalysedEquation)

/-! ## The recursion without a bound -/

/-- Evaluated places with one more, unless it is among them. -/
def addPlace (evaluated : Places) (place : Nat) : Places :=
  if evaluated.contains place then evaluated else evaluated ++ [place]

/-- Evaluating pending places in order, those that are awaited after all that they depend on,
comes to an end. There is no bound on the depth: a cycle would have no derivation. -/
inductive Follows (equations : List AnalysedEquation) (followed : AnalysedEquation → Bool) :
    (pending : List Nat) → Places → Places → Prop
  | done (evaluated : Places) : Follows equations followed [] evaluated evaluated
  | skip {place : Nat} {rest : List Nat} {evaluated result : Places}
      (idle : isAwaited equations followed evaluated place = false)
      (after : Follows equations followed rest evaluated result) :
      Follows equations followed (place :: rest) evaluated result
  | enter {place : Nat} {rest : List Nat} {evaluated middle result : Places}
      {equation : AnalysedEquation} (awaited : isAwaited equations followed evaluated place)
      (found : equations[place]? = some equation)
      (before : Follows equations followed equation.dependencies evaluated middle)
      (after : Follows equations followed rest (addPlace middle place) result) :
      Follows equations followed (place :: rest) evaluated result

/-- Evaluating the equation of a place, without a bound on the depth, ends with some places. -/
def EndsWith (equations : List AnalysedEquation) (followed : AnalysedEquation → Bool)
    (place : Nat) (evaluated result : Places) : Prop :=
  ∃ equation middle, equations[place]? = some equation ∧
    Follows equations followed equation.dependencies evaluated middle ∧
    result = addPlace middle place

variable {equations : List AnalysedEquation} {followed : AnalysedEquation → Bool}

/-- The recursion has one outcome at most. -/
theorem Follows.unique {pending : List Nat} {evaluated one other : Places}
    (first : Follows equations followed pending evaluated one)
    (second : Follows equations followed pending evaluated other) : one = other := by
  induction first generalizing other with
  | done =>
      cases second
      rfl
  | skip idle _ ih =>
      cases second with
      | skip _ after => exact ih after
      | enter awaited => simp [idle] at awaited
  | enter awaited found _ _ before after =>
      cases second with
      | skip idle => simp [idle] at awaited
      | enter _ foundOther beforeOther afterOther =>
          obtain rfl := Option.some.inj (found.symm.trans foundOther)
          obtain rfl := before beforeOther
          exact after afterOther

theorem EndsWith.unique {place : Nat} {evaluated one other : Places}
    (first : EndsWith equations followed place evaluated one)
    (second : EndsWith equations followed place evaluated other) : one = other := by
  obtain ⟨equation, middle, found, follows, rfl⟩ := first
  obtain ⟨_, _, foundOther, followsOther, rfl⟩ := second
  obtain rfl := Option.some.inj (found.symm.trans foundOther)
  rw [follows.unique followsOther]

/-- An evaluation that may go deeper than the rank of its place is the recursion without a
bound. -/
theorem endsWith_evaluate {rank : Nat → Nat}
    (lower : ∀ place dependency, DependsOn equations followed place dependency →
      rank dependency < rank place)
    {depth place : Nat} (inside : place < equations.length) (deep : rank place < depth)
    (evaluated : Places) :
    EndsWith equations followed place evaluated
      (evaluate equations followed depth place evaluated) := by
  induction depth generalizing place evaluated with
  | zero => omega
  | succ depth ih =>
      have found := List.getElem?_eq_getElem inside
      have below : ∀ pending, pending ⊆ equations[place].dependencies → ∀ evaluated,
          Follows equations followed pending evaluated
            (pending.foldl (fun evaluated dependency =>
              if isAwaited equations followed evaluated dependency then
                evaluate equations followed depth dependency evaluated
              else evaluated) evaluated) := by
        intro pending
        induction pending with
        | nil => exact fun _ => .done
        | cons dependency rest later =>
            intro among evaluated
            rw [List.cons_subset] at among
            rw [List.foldl_cons]
            cases awaited : isAwaited equations followed evaluated dependency with
            | false => exact .skip awaited (later among.2 evaluated)
            | true =>
                obtain ⟨⟨other, foundOther, isFollowed⟩, -⟩ := isAwaited_iff.mp awaited
                have depends : DependsOn equations followed place dependency :=
                  ⟨_, other, found, among.1, foundOther, isFollowed⟩
                have less := lower place dependency depends
                obtain ⟨equation, middle, foundEquation, before, ends⟩ :=
                  ih (List.getElem?_eq_some_iff.mp foundOther).1 (by omega) evaluated
                refine .enter awaited foundEquation before ?_
                rw [← ends]
                exact later among.2 _
      refine ⟨equations[place], _, found, below _ (List.Subset.refl _) evaluated, ?_⟩
      rw [evaluate, found]
      rfl

/-- Ranks exclude cycles. -/
theorem not_transGen_of_rank {rank : Nat → Nat}
    (lower : ∀ place dependency, DependsOn equations followed place dependency →
      rank dependency < rank place) (place : Nat) :
    ¬Relation.TransGen (DependsOn equations followed) place place := by
  have decreasing : ∀ {one other}, Relation.TransGen (DependsOn equations followed) one other →
      rank other < rank one := by
    intro one other chain
    induction chain with
    | single depends => exact lower _ _ depends
    | tail _ depends ih => exact Nat.lt_trans (lower _ _ depends) ih
  intro cycle
  exact Nat.lt_irrefl _ (decreasing cycle)

end Code

namespace Analysis

/-! ## Each dependency once -/

namespace Elimination

open Relation (ReflTransGen)

variable {index : Index} {start state : Elimination}

theorem dependencies_reduced (state : Elimination) (number : Nat) (equation : OrderedEquation) :
    (state.reduced number equation).dependencies = equation.dependencies ++
      (equation.plain.filter fun record => (state.registry.get record).isKnown).filterMap
        fun record => (state.registry.get record).equation := by
  simp only [reduced, OrderedEquation.reduce, OrderedEquation.noteKinds,
    OrderedEquation.eliminate, List.filter_map, List.filterMap_map]
  rfl

/-- An equation computes one class only. -/
theorem record_eq_of_equation (ready : Start start)
    (moves : ReflTransGen (Move index) start state) {one other number : Nat}
    (named : (state.registry.get one).equation = some number)
    (namedOther : (state.registry.get other).equation = some number) : one = other := by
  obtain ⟨_, _, _, found, -, -, -, computes, -⟩ := exists_computing ready moves named
  obtain ⟨_, _, _, foundOther, -, -, -, computesOther, -⟩ :=
    exists_computing ready moves namedOther
  obtain rfl := Option.some.inj (found.symm.trans foundOther)
  exact Option.some.inj (computes.symm.trans computesOther)

/-- An equation notes each of its dependencies once: every class that it refers to is taken off
once, and no two classes are computed by the same equation. -/
theorem dependencies_nodup (ready : Start start) (moves : ReflTransGen (Move index) start state)
    {number : Nat} {origin equation : OrderedEquation}
    (foundOrigin : start.equations[number]? = some origin)
    (found : state.equations[number]? = some equation) : equation.dependencies.Nodup := by
  refine equation_induction (fun _ _ _ equation => equation.dependencies.Nodup) moves ?_
    (fun _ _ nodup => nodup) ?_ (fun _ _ _ _ _ _ _ nodup => nodup) number origin equation
    foundOrigin found
  · intro number origin foundOrigin
    rw [ready.untouched origin (List.mem_of_getElem? foundOrigin)]
    exact List.nodup_nil
  · intro state number origin equation moves foundOrigin found waiting nodup
    have plain : equation.plain.Nodup := by
      obtain ⟨source, foundSource, -, -, items⟩ := origin_of_moves moves found
      have all := (ready.items_nodup source (List.mem_of_getElem? foundSource)).sublist items
      exact (List.nodup_append.mp all).1.of_map _
    rw [dependencies_reduced]
    refine nodup.append ((plain.filter _).filterMap ?_) ?_
    · intro one other computing named namedOther
      exact record_eq_of_equation ready moves named namedOther
    · -- A class that is taken off now has been open so far, so its equation has not been noted.
      intro other noted new
      obtain ⟨record, open_, named⟩ := List.mem_filterMap.mp new
      obtain ⟨-, -, -, record', -, gone, named'⟩ :=
        order_lt_of_dependency ready moves foundOrigin found noted
      obtain rfl := record_eq_of_equation ready moves named named'
      exact gone (OrderedEquation.value_mem_items.mpr (List.mem_filter.mp open_).1)

end Elimination

namespace Stage

variable {model : Model} {place number order : Nat} {source equation : OrderedEquation}
  {item : Item} {result : AnalysedEquation} {record : Nat} {found : AnalysedVariable}

theorem ReportedAt.dependencies_nodup
    (reportedAt : ReportedAt model place number order source equation item result) :
    result.dependencies.Nodup := by
  rw [reportedAt.dependencies]
  refine (Elimination.dependencies_nodup (ready model) (moves model)
    (start_getElem?.mpr reportedAt.ordered.foundSource) reportedAt.ordered.found).filterMap ?_
  intro one other dependency isPlace isPlaceOther
  obtain ⟨_, equal, -⟩ := List.idxOf?_eq_some_iff.mp isPlace
  obtain ⟨_, equalOther, -⟩ := List.idxOf?_eq_some_iff.mp isPlaceOther
  rw [← equal, ← equalOther]

theorem ReportedAt.dependsOn (valid : (analyse model).type.isValid)
    (reportedAt : ReportedAt model place number order source equation item result)
    {dependency : Nat} (depends : dependency ∈ result.dependencies) :
    Code.DependsOn (analyse model).equations (fun _ => true) place dependency := by
  obtain ⟨other, -, listed⟩ := reportedAt.mem_dependencies depends
  obtain ⟨_, _, _, _, result', reportedAt'⟩ := exists_reportedAt_of_mem valid listed
  exact ⟨result, result', reportedAt.found, depends, reportedAt'.found, rfl⟩

/-! ## Nothing is missing -/

/-- A class that is bound to a variable is available without equations, or one of the
dependencies of an equation computes it. -/
def Available (analysed : AnalysedModel) (equation : AnalysedEquation) (declaration : Nat) :
    Prop :=
  ∃ type position, analysed.binding? declaration = some (type, position) ∧
    (type = .integrationVariable ∨ type = .state ∨ type = .constant ∨
      ∃ dependency ∈ equation.dependencies, ∃ other,
        analysed.equations[dependency]? = some other ∧ analysed.Binds other.computes declaration)

/-- What a reported equation refers to by value, apart from what it computes, is available. -/
theorem ReportedAt.available (valid : (analyse model).type.isValid)
    (reportedAt : ReportedAt model place number order source equation item result)
    {declaration : Nat} (mentioned : (.plain, declaration) ∈ source.expr.mentions .plain)
    (other : ¬(analyse model).Binds result.computes declaration) :
    Available (analyse model) result declaration := by
  obtain ⟨record, found, bound⟩ := exists_boundTo valid reportedAt.membership mentioned
  refine ⟨found.type, found.place, bound.binding, ?_⟩
  by_cases unknown : ((start model).registry.get record).kind = .unknown
  · have asked : .value record ∈ source.items :=
      (value_mem_items reportedAt.membership).mpr ⟨declaration, mentioned, bound.recorded⟩
    have gone : .value record ∉ equation.items := by
      rw [reportedAt.ordered.single, List.mem_singleton]
      rintro rfl
      exact other ((reportedAt.binds_iff valid mentioned).mpr bound.recorded)
    obtain ⟨dependency, listed, _, _, _, _, _, result', reportedAt', -, computes⟩ :=
      reportedAt.exists_computing valid bound.entry asked gone unknown
    refine Or.inr (Or.inr (Or.inr ⟨dependency, listed, result', reportedAt'.found, ?_⟩))
    rw [AnalysedModel.Binds, computes]
    exact bound.binding
  · rcases type_of_known valid bound.entry unknown with type | type | type
    · exact Or.inl type
    · exact Or.inr (Or.inl type)
    · exact Or.inr (Or.inr (Or.inl type))

/-- The dependencies of a model that can be solved: each equation lists places of other equations,
each once, that compute all that it refers to by value and that is neither computed by itself nor
available without equations. They form no cycle, so the recursion over them ends, and it ends with
what the bounded evaluation returns. -/
theorem dependencies_complete_acyclic (model : Model) (valid : (analyse model).type.isValid) :
    (∀ place result, (analyse model).equations[place]? = some result →
      result.dependencies.Nodup ∧
      (∀ dependency ∈ result.dependencies,
        dependency < (analyse model).equations.length ∧ dependency ≠ place) ∧
      ∀ declaration, (.plain, declaration) ∈ result.expr.mentions .plain →
        ¬(analyse model).Binds result.computes declaration →
          Available (analyse model) result declaration) ∧
    (∀ place, ¬Relation.TransGen (Code.DependsOn (analyse model).equations fun _ => true)
      place place) ∧
    ∀ (followed : AnalysedEquation → Bool) (evaluated : Code.Places),
      ∀ place < (analyse model).equations.length, ∀ after,
        Code.EndsWith (analyse model).equations followed place evaluated after ↔
          after = Code.evaluate (analyse model).equations followed
            ((analyse model).equations.length + 1) place evaluated := by
  have ranked := ranked valid
  refine ⟨?_, Code.not_transGen_of_rank ranked.lower, ?_⟩
  · intro place result found
    obtain ⟨number, order, source, equation, item, reportedAt⟩ := exists_reportedAt valid found
    refine ⟨reportedAt.dependencies_nodup, ?_, ?_⟩
    · intro dependency depends
      have dependsOn := reportedAt.dependsOn valid depends
      have lower := ranked.lower place dependency dependsOn
      obtain ⟨_, _, _, _, foundOther, -⟩ := dependsOn
      refine ⟨(List.getElem?_eq_some_iff.mp foundOther).1, ?_⟩
      rintro rfl
      exact Nat.lt_irrefl _ lower
    · intro declaration mentioned other
      rw [reportedAt.expr, Equation.Expr.mentions_rescale _ _ _ _ (by simp)] at mentioned
      exact reportedAt.available valid mentioned other
  · intro followed evaluated place inside after
    have ends : Code.EndsWith _ followed place evaluated _ := Code.endsWith_evaluate
      (fun place dependency depends => ranked.lower place dependency depends.all) inside
      (Nat.lt_succ_of_lt (ranked.bounded place inside)) evaluated
    exact ⟨fun other => other.unique ends, fun equal => equal ▸ ends⟩

/-- The equation `x = y` of `leftover` depends on the one that computes `x`, and evaluating it ends
with both. -/
theorem leftover_dependencies :
    (analyse leftover).type.isValid ∧
      ∃ result, (analyse leftover).equations[1]? = some result ∧ result.dependencies = [0] ∧
        (.plain, 0) ∈ result.expr.mentions .plain ∧
        ¬(analyse leftover).Binds result.computes 0 ∧ Available (analyse leftover) result 0 ∧
        Code.EndsWith (analyse leftover).equations (fun _ => true) 1 []
          (Code.evaluate (analyse leftover).equations (fun _ => true)
            ((analyse leftover).equations.length + 1) 1 []) := by
  have listed : (reported leftover)[1]? = some 0 := by rw [reported_leftover]; rfl
  obtain ⟨_, source, equation, item, result, reportedAt⟩ :=
    exists_reportedAt_of_mem valid_leftover listed
  obtain ⟨every, -, ends⟩ := dependencies_complete_acyclic leftover valid_leftover
  obtain ⟨-, -, available⟩ := every 1 result reportedAt.found
  have inside := (List.getElem?_eq_some_iff.mp reportedAt.found).1
  have foundSource := reportedAt.ordered.foundSource
  rw [built, gathered_leftover] at foundSource
  obtain rfl := Option.some.inj foundSource
  have mentioned : (.plain, 0) ∈ result.expr.mentions .plain := by
    rw [reportedAt.expr, Equation.Expr.mentions_rescale _ _ _ _ (by simp)]
    decide
  have noted : ((final leftover).equations[0]?.map fun equation =>
      (equation.dependencies, equation.computes)) = some ([1], some 1) := by
    rw [final, start, derivatives_leftover, gathered_leftover]
    cbv
  rw [reportedAt.ordered.found, Option.map_some, Option.some.injEq, Prod.mk.injEq] at noted
  have dependencies : result.dependencies = [0] := by
    rw [reportedAt.dependencies, noted.1, reported_leftover]
    rfl
  have other : ¬(analyse leftover).Binds result.computes 0 := by
    have recorded : (final leftover).registry.find? (index leftover) 0 = some 0 := by
      rw [registry_leftover]
      cbv
    have computes := reportedAt.ordered.computes.symm.trans noted.2
    rw [reportedAt.binds_iff valid_leftover (by decide : (Equation.Role.plain, 0) ∈ _), recorded,
      Option.some.inj computes]
    decide
  exact ⟨valid_leftover, result, reportedAt.found, dependencies, mentioned, other,
    available 0 mentioned other, (ends _ [] 1 inside _).mpr rfl⟩

end Stage

end Analysis

end ComponentModel
