import ComponentModel.Proofs.Issues
import Mathlib.Algebra.BigOperators.Group.Finset.Basic
import Mathlib.Data.Finset.Card

/-!
# Initial values of classes

The record of a class tracks one declaration: the one that the class was first met at, until a
declaration with an initial value is met and takes its place. From then on every other declaration
of the class with an initial value is an issue. So there is one issue for each initial value but
one, in whatever order equations and declarations first mention a class.
-/

namespace ComponentModel.Analysis

/-- The declarations of a class that carry initial values. -/
def Index.initialisedIn (index : Index) (representative : Nat) : Finset Nat :=
  {declaration ∈ Finset.range index.declarations.length |
    index.classOf declaration = representative ∧ (index.declaration declaration).isInitialised}

theorem Index.mem_initialisedIn {index : Index} {representative declaration : Nat} :
    declaration ∈ index.initialisedIn representative ↔
      declaration < index.declarations.length ∧ index.classOf declaration = representative ∧
        (index.declaration declaration).isInitialised := by
  simp [initialisedIn]

/-- The classes are those of the declarations. -/
theorem Index.Bounded.mem_classes_iff {index : Index} (bounded : index.Bounded)
    {representative : Nat} : representative ∈ index.classes ↔
      ∃ declaration < index.declarations.length, index.classOf declaration = representative := by
  rw [List.mem_iff_getElem]
  refine exists_congr fun declaration => ?_
  rw [← bounded.length, ← exists_prop]
  refine exists_congr fun inside => ?_
  simp [Index.classOf, inside]

/-! ## Records that have been gathered -/

/-- A record reports the declaration whose initial value it names, and it is a constant exactly if
there is one. -/
structure Record.Tracks (index : Index) (record : Record) : Prop where
  same : record.initialDeclaration = record.declaration
  kind : record.kind =
    if (index.declaration record.declaration).isInitialised then .constant else .unknown

theorem Gathered.keeps_tracks (index : Index) :
    Keeps index fun registry => ∀ record ∈ registry, record.Tracks index where
  resolve _ _ _ tracks := by
    intro record membership
    rcases Registry.mem_resolve index membership with earlier | rfl
    · exact tracks record earlier
    · exact ⟨rfl, rfl⟩
  track _ _ _ _ initialised tracks := Registry.forall_mem_change tracks fun record _ => by
    refine ⟨rfl, ?_⟩
    simp [Record.track, initialised]

namespace Registry

variable {index : Index} {registry : Registry} {declaration number : Nat}

/-- The declaration that the record of a class tracks. -/
def tracked (registry : Registry) (index : Index) (declaration : Nat) : Nat :=
  match registry.find? index declaration with
  | some number => (registry.get number).declaration
  | none => declaration

theorem tracked_of_find? (found : registry.find? index declaration = some number) :
    registry.tracked index declaration = (registry.get number).declaration := by
  rw [tracked, found]

theorem get_resolve (index : Index) (inside : number < registry.length) (declaration : Nat) :
    (registry.resolve index declaration).2.get number = registry.get number := by
  unfold resolve
  split
  case h_1 => rfl
  case h_2 => simp [get, List.getD_eq_getElem?_getD, List.getElem?_append_left inside]

/-- Meeting a class leaves what is tracked for the classes that have been met. -/
theorem tracked_resolve (found : (registry.find? index declaration).isSome) (met : Nat) :
    (registry.resolve index met).2.tracked index declaration =
      registry.tracked index declaration := by
  obtain ⟨number, found⟩ := Option.isSome_iff_exists.mp found
  rw [tracked_of_find? found, tracked_of_find? (find?_resolve_of_some index found),
    get_resolve index (lt_of_find? found)]

/-- The class of a declaration takes over an initial value, and no other class does. -/
theorem tracked_change (found : registry.find? index declaration = some number) (other : Nat) :
    (registry.change number (·.track declaration true)).tracked index other =
      if registry.find? index other = some number then declaration
      else registry.tracked index other := by
  have same : (registry.change number (·.track declaration true)).find? index other =
      registry.find? index other := find?_change index other _ rfl
  by_cases here : registry.find? index other = some number
  · rw [if_pos here, tracked_of_find? (same.trans here), get_change_self _ (lt_of_find? found)]
    rfl
  · rw [if_neg here, tracked, tracked, same]
    split
    case h_1 numberOther foundOther =>
      have different : number ≠ numberOther := by
        rintro rfl
        exact here foundOther
      rw [get_change_of_ne _ different]
    case h_2 => rfl

/-- A declaration carries an initial value, but its class tracks another declaration. -/
def isSurplus (registry : Registry) (index : Index) (declaration : Nat) : Bool :=
  (index.declaration declaration).isInitialised && declaration != registry.tracked index declaration

end Registry

/-! ## Meeting declarations -/

namespace Gathered

variable {index : Index} {gathered : Gathered} {met : List Nat} {declaration : Nat}

/-- What has been taken over from the declarations that have been met: a class tracks an initial
value if one of them has one, and there is an issue for each other one. -/
structure Adopts (index : Index) (met : List Nat) (gathered : Gathered) : Prop where
  tracked : ∀ declaration ∈ met, (index.declaration declaration).isInitialised →
    (index.declaration (gathered.registry.tracked index declaration)).isInitialised
  surplus : gathered.issues.countP Issue.isInitialisedTwice =
    met.countP (gathered.registry.isSurplus index)

namespace Adopts

/-- What has been taken over depends on what the classes of initialised declarations track. -/
theorem congr {changed : Gathered} (adopts : Adopts index met gathered)
    (same : ∀ declaration ∈ met, (index.declaration declaration).isInitialised →
      changed.registry.tracked index declaration = gathered.registry.tracked index declaration)
    (issues : changed.issues.countP Issue.isInitialisedTwice =
      gathered.issues.countP Issue.isInitialisedTwice) : Adopts index met changed where
  tracked declaration membership initialised := by
    rw [same declaration membership initialised]
    exact adopts.tracked declaration membership initialised
  surplus := by
    rw [issues, adopts.surplus]
    refine List.countP_congr fun declaration membership => ?_
    simp only [Registry.isSurplus, Bool.and_eq_true]
    exact and_congr_right fun initialised => by rw [same declaration membership initialised]

theorem resolve (adopts : Adopts index met gathered) (gathers : Gathers index met gathered)
    (declaration : Nat) : Adopts index met
      { gathered with registry := (gathered.registry.resolve index declaration).2 } :=
  adopts.congr (fun _ membership _ =>
    Registry.tracked_resolve (gathers.isSome_find? membership) declaration) rfl

/-- One more declaration has been met. -/
theorem append (adopts : Adopts index met gathered) {issues : List Issue}
    (tracked : (index.declaration declaration).isInitialised →
      (index.declaration (gathered.registry.tracked index declaration)).isInitialised)
    (count : issues.countP Issue.isInitialisedTwice =
      gathered.issues.countP Issue.isInitialisedTwice +
        [declaration].countP (gathered.registry.isSurplus index)) :
    Adopts index (met ++ [declaration]) { gathered with issues } where
  tracked other membership := by
    rcases List.mem_append.mp membership with earlier | new
    · exact adopts.tracked other earlier
    · rw [List.mem_singleton.mp new]
      exact tracked
  surplus := by rw [count, adopts.surplus, List.countP_append]

theorem meet (adopts : Adopts index met gathered) (gathers : Gathers index met gathered)
    (declaration : Nat) :
    Adopts index (met ++ [declaration]) (addDeclaration index gathered declaration) := by
  have resolved := adopts.resolve gathers declaration
  have found := gathered.registry.find?_resolve index declaration
  unfold addDeclaration
  generalize gathered.registry.resolve index declaration = result at *
  obtain ⟨number, registry⟩ := result
  have tracked : (registry.get number).declaration = registry.tracked index declaration :=
    (Registry.tracked_of_find? found).symm
  simp only [tracked]
  split
  case isTrue fresh =>
    -- No class that tracks an initial value changes, so neither do the issues.
    obtain ⟨initialised, notYet⟩ := Bool.and_eq_true_iff.mp fresh
    have own : (registry.change number (·.track declaration true)).tracked index declaration =
        declaration := by
      rw [Registry.tracked_change found, if_pos found]
    have changed : Adopts index met
        { gathered with registry := registry.change number (·.track declaration true) } := by
      refine resolved.congr (fun other membership given => ?_) rfl
      rw [Registry.tracked_change found, if_neg]
      intro same
      have taken := resolved.tracked other membership given
      rw [Registry.tracked_of_find? same, tracked] at taken
      simp [taken] at notYet
    refine changed.append (fun _ => ?_) ?_
    · rwa [own]
    · simp [Registry.isSurplus, own]
  case isFalse notFresh =>
    have taken : (index.declaration declaration).isInitialised →
        (index.declaration (registry.tracked index declaration)).isInitialised := by
      simpa using notFresh
    split
    case isTrue second =>
      refine resolved.append taken ?_
      simp only [Bool.and_eq_true] at second
      simp [Issue.isInitialisedTwice, Registry.isSurplus, second]
    case isFalse only =>
      refine resolved.append taken ?_
      have kept : registry.isSurplus index declaration = false := by
        rw [Registry.isSurplus, Bool.and_eq_false_imp]
        intro initialised
        simpa [initialised, taken initialised] using only
      simp [kept]

end Adopts

/-- Whatever is mentioned and met, in whatever order, initial values are taken over. -/
theorem Gathers.adopts (gathers : Gathers index met gathered) : Adopts index met gathered := by
  induction gathers with
  | start => exact ⟨by simp, rfl⟩
  | undeclared _ place ih =>
      exact ih.congr (fun _ _ _ => rfl) (by simp [report, Issue.isInitialisedTwice])
  | mention earlier _ ih => exact ih.resolve earlier _
  | equation _ _ ih => exact ih.congr (fun _ _ _ => rfl) rfl
  | meet earlier _ ih => exact ih.meet earlier _

/-! ## Classes of a model -/

variable {model : Model} {representative : Nat}

theorem tracks_ofIndex (model : Model) :
    ∀ record ∈ (ofIndex (.ofModel model)).registry, record.Tracks (.ofModel model) :=
  (keeps_tracks _).ofIndex (by simp)

/-- The records are those of the classes, one for each. -/
theorem representatives_ofIndex (model : Model) :
    ((ofIndex (.ofModel model)).registry.map Record.representative).Perm
      (Index.ofModel model).classes.dedup := by
  have bounded := Index.bounded_ofModel model
  have classified := (keeps_classified model).ofIndex .empty
  rw [List.perm_ext_iff_of_nodup classified.nodup (List.nodup_dedup _)]
  intro representative
  rw [List.mem_dedup, bounded.mem_classes_iff]
  constructor
  · intro listed
    obtain ⟨record, membership, rfl⟩ := List.mem_map.mp listed
    have belongs := classified.belongs record membership
    exact ⟨record.declaration, belongs.declaration_lt bounded, belongs.declared⟩
  · rintro ⟨declaration, inside, rfl⟩
    obtain ⟨number, found⟩ := Option.isSome_iff_exists.mp (isSome_find?_ofIndex inside)
    rw [← Registry.representative_of_find? found]
    exact List.mem_map_of_mem (Registry.get_mem (Registry.lt_of_find? found))

/-- A record tracks an initial value if a declaration of its class carries one. -/
theorem declaration_mem_initialisedIn {record : Record}
    (membership : record ∈ (ofIndex (.ofModel model)).registry)
    (nonempty : ((Index.ofModel model).initialisedIn record.representative).Nonempty) :
    record.declaration ∈ (Index.ofModel model).initialisedIn record.representative := by
  have bounded := Index.bounded_ofModel model
  have classified := (keeps_classified model).ofIndex .empty
  have belongs := classified.belongs record membership
  obtain ⟨number, inside, rfl⟩ := List.getElem_of_mem membership
  rw [← Registry.get_of_lt inside] at belongs nonempty ⊢
  obtain ⟨declaration, member⟩ := nonempty
  obtain ⟨declared, same, initialised⟩ := Index.mem_initialisedIn.mp member
  have taken := (gathers_ofIndex model).adopts.tracked declaration (List.mem_range.mpr declared)
    initialised
  rw [Registry.tracked_of_find? (classified.find?_eq_some inside same)] at taken
  exact Index.mem_initialisedIn.mpr ⟨belongs.declaration_lt bounded, belongs.declared, taken⟩

/-- All initial values of a class but one are surplus. -/
theorem card_isSurplus (model : Model) (representative : Nat) :
    Finset.card {declaration ∈ Finset.range (Index.ofModel model).declarations.length |
        (ofIndex (.ofModel model)).registry.isSurplus (.ofModel model) declaration ∧
          (Index.ofModel model).classOf declaration = representative} =
      ((Index.ofModel model).initialisedIn representative).card - 1 := by
  rcases ((Index.ofModel model).initialisedIn representative).eq_empty_or_nonempty with
    none | ⟨declaration, member⟩
  · rw [none, Finset.card_empty, Finset.card_eq_zero, Finset.filter_eq_empty_iff]
    rintro declaration inside ⟨surplus, same⟩
    have member : declaration ∈ (Index.ofModel model).initialisedIn representative :=
      Index.mem_initialisedIn.mpr ⟨Finset.mem_range.mp inside, same,
        (Bool.and_eq_true_iff.mp surplus).1⟩
    simp [none] at member
  · obtain ⟨inside, rfl, -⟩ := Index.mem_initialisedIn.mp member
    obtain ⟨number, found⟩ := Option.isSome_iff_exists.mp (isSome_find?_ofIndex inside)
    have record := Registry.representative_of_find? found
    have tracked := declaration_mem_initialisedIn (Registry.get_mem (Registry.lt_of_find? found))
      (record ▸ ⟨declaration, member⟩)
    rw [record] at tracked
    rw [← Finset.card_erase_of_mem tracked]
    congr 1
    ext other
    simp only [Finset.mem_filter, Finset.mem_range, Finset.mem_erase, Index.mem_initialisedIn,
      Registry.isSurplus, Bool.and_eq_true, bne_iff_ne]
    have own (same : (Index.ofModel model).classOf other =
        (Index.ofModel model).classOf declaration) :
        (ofIndex (.ofModel model)).registry.tracked (.ofModel model) other =
          ((ofIndex (.ofModel model)).registry.get number).declaration := by
      refine Registry.tracked_of_find? ?_
      rw [Registry.find?_of_equivalent (Index.equivalent_iff.mpr same), found]
    constructor
    · rintro ⟨within, ⟨initialised, other⟩, same⟩
      exact ⟨own same ▸ other, within, same, initialised⟩
    · rintro ⟨other, within, same, initialised⟩
      exact ⟨within, ⟨initialised, (own same).symm ▸ other⟩, same⟩

/-- There is one issue for each initial value of a class but one. -/
theorem countP_isInitialisedTwice (model : Model) :
    (ofIndex (.ofModel model)).issues.countP Issue.isInitialisedTwice =
      ∑ representative ∈ (Index.ofModel model).classes.toFinset,
        (((Index.ofModel model).initialisedIn representative).card - 1) := by
  have bounded := Index.bounded_ofModel model
  calc (ofIndex (.ofModel model)).issues.countP Issue.isInitialisedTwice
      = (List.range (Index.ofModel model).declarations.length).countP
          ((ofIndex (.ofModel model)).registry.isSurplus (.ofModel model)) :=
        (gathers_ofIndex model).adopts.surplus
    _ = Finset.card {declaration ∈ Finset.range (Index.ofModel model).declarations.length |
          (ofIndex (.ofModel model)).registry.isSurplus (.ofModel model) declaration} := by
        rw [List.countP_eq_length_filter,
          ← List.toFinset_card_of_nodup (List.nodup_range.filter _)]
        congr 1
        ext declaration
        simp
    _ = ∑ representative ∈ (Index.ofModel model).classes.toFinset, _ :=
        Finset.card_eq_sum_card_fiberwise fun declaration member => by
          have inside := Finset.mem_range.mp (Finset.mem_filter.mp (Finset.mem_coe.mp member)).1
          exact Finset.mem_coe.mpr (List.mem_toFinset.mpr
            (bounded.mem_classes_iff.mpr ⟨declaration, inside, rfl⟩))
    _ = _ := by
        refine Finset.sum_congr rfl fun representative _ => ?_
        rw [Finset.filter_filter, card_isSurplus]

/-- When all components have been visited, there is one record for each class, and one issue for
each initial value of a class but one, also when the analysis has ended. A class with one initial
value is a constant that starts with it, and a class without one is unknown. -/
theorem classes_adopt_initial_values (model : Model) :
    ((ofIndex (.ofModel model)).registry.map Record.representative).Perm
        (Index.ofModel model).classes.dedup ∧
      (ofIndex (.ofModel model)).issues.countP Issue.isInitialisedTwice =
        ∑ representative ∈ (Index.ofModel model).classes.toFinset,
          (((Index.ofModel model).initialisedIn representative).card - 1) ∧
      (analyse model).issues.countP Issue.isInitialisedTwice =
        (ofIndex (.ofModel model)).issues.countP Issue.isInitialisedTwice ∧
      ∀ record ∈ (ofIndex (.ofModel model)).registry,
        (∀ declaration,
          (Index.ofModel model).initialisedIn record.representative = {declaration} →
            record.kind = .constant ∧ record.initialDeclaration = declaration ∧
              record.declaration = declaration) ∧
        ((Index.ofModel model).initialisedIn record.representative = ∅ →
          record.kind = .unknown) := by
  refine ⟨representatives_ofIndex model, countP_isInitialisedTwice model,
    Stage.countP_isInitialisedTwice_analyse model, fun record membership => ?_⟩
  have tracks := tracks_ofIndex model record membership
  constructor
  · intro declaration only
    have tracked := declaration_mem_initialisedIn membership (only ▸ Finset.singleton_nonempty _)
    have same : record.declaration = declaration := by simpa [only] using tracked
    refine ⟨?_, tracks.same.trans same, same⟩
    rw [tracks.kind, if_pos (Index.mem_initialisedIn.mp tracked).2.2]
  · intro none
    rw [tracks.kind, if_neg]
    intro initialised
    have bounded := Index.bounded_ofModel model
    have belongs := ((keeps_classified model).ofIndex .empty).belongs record membership
    have member : record.declaration ∈
        (Index.ofModel model).initialisedIn record.representative :=
      Index.mem_initialisedIn.mpr ⟨belongs.declaration_lt bounded, belongs.declared, initialised⟩
    simp [none] at member

end Gathered

end ComponentModel.Analysis
