import ComponentModel.Proofs.Acceptance
import ComponentModel.Proofs.Computation

/-!
# The order of initial values

States and constants are initialised in three steps: those that start with numbers, then those that
start with other variables, each in the order in which they are kept, and then the equations without
references. So what starts with another variable reads what has been set only if that one is a
state or constant which starts with a number or is kept further in front. An equation without
references is evaluated when nothing has set the variable that it computes, so it must be explicit.
-/

namespace ComponentModel

namespace Code

open Analysis (AnalysedModel AnalysedVariable)

/-- A statement assigns something in which the variable of integration is written. -/
def Statement.NamesIntegration (analysed : AnalysedModel) : Statement → Prop
  | literal _ _ => False
  | copy _ type _ => type = .integrationVariable
  | equation result =>
      ∃ mention ∈ written .plain ((result.expr.assignment?.map Prod.snd).getD result.expr),
        ∃ place, analysed.binding? mention.2 = some (.integrationVariable, place)

/-- All elements that a statement reads have been assigned to by earlier statements, and it does
not read the variable of integration. -/
structure Statement.ReadsSet (analysed : AnalysedModel) (before : List Statement)
    (statement : Statement) : Prop where
  elements : ∀ slot ∈ statement.reads analysed,
    ∃ earlier ∈ before, earlier.target? analysed = some slot
  untimed : ¬statement.NamesIntegration analysed

namespace Program

variable {analysed : AnalysedModel} {front : List AnalysedVariable} {found : AnalysedVariable}

/-- The statement for a variable that starts with another one. -/
def copy? (analysed : AnalysedModel) (found : AnalysedVariable) : Option Statement :=
  ((found.initial.initialValue.bind InitialValue.variableName).bind
    (analysed.bindingOf? found.initial.component)).map fun binding =>
      .copy found binding.1 binding.2

theorem copy?_eq_some {name : String} {binding : Analysis.VariableType × Nat}
    (named : found.initial.initialValue.bind InitialValue.variableName = some name)
    (bound : analysed.bindingOf? found.initial.component name = some binding) :
    copy? analysed found = some (.copy found binding.1 binding.2) := by
  rw [copy?, named, Option.bind_some, bound]
  rfl

/-- The statement of an equation stands between those of the places before and behind. -/
theorem equations_middle {place : Nat} {result : Analysis.AnalysedEquation} (front back : Places)
    (reported : analysed.equations[place]? = some result) :
    equations analysed (front ++ place :: back) =
      equations analysed front ++ .equation result :: equations analysed back := by
  simp [equations, reported]

/-- The variables that initial values name are states and constants that start with numbers or are
kept in front of the variables which they are named for. -/
def NamesInOrder (analysed : AnalysedModel) : Prop :=
  ∀ front found back name, Profile.initialised analysed = front ++ found :: back →
    found.initial.initialValue.bind InitialValue.variableName = some name →
    ∃ source ∈ Profile.initialised analysed,
      analysed.bindingOf? found.initial.component name = some (source.type, source.place) ∧
        ((source.initial.initialValue.bind InitialValue.literal).isSome ∨ source ∈ front)

end Program

end Code

namespace Analysis.Stage

open Code (Profile Schedule Slot Statement)
open Code.Program (NamesFound NamesInOrder StoresInitial copy? initialisation literals valueSlot?)

variable {strict : Bool} {model : Model} {record place : Nat} {found source : AnalysedVariable}
  {slot : Slot} {front back : List AnalysedVariable}

/-! ## Variables that start with others -/

/-- Only the variable of integration is kept in no element. -/
theorem valueSlot?_eq_none_iff : valueSlot? found = none ↔ found.type = .integrationVariable := by
  unfold valueSlot? Slot.of?
  cases found.type <;> simp

/-- What has been set in front of a variable that starts with another one: states and constants that
start with numbers or are kept further in front. -/
theorem exists_set_iff (valid : (analyse model).type.isValid) (names : NamesFound (analyse model))
    (split : Profile.initialised (analyse model) = front ++ back)
    (entry : (layout model).byRecord.lookup record = some source)
    (kept : valueSlot? source = some slot) :
    (∃ earlier ∈ literals (analyse model) ++ front.filterMap (copy? (analyse model)),
        earlier.target? (analyse model) = some slot) ↔
      source ∈ Profile.initialised (analyse model) ∧
        ((source.initial.initialValue.bind InitialValue.literal).isSome ∨ source ∈ front) := by
  have inFront {found : AnalysedVariable} (isFront : found ∈ front) :
      found ∈ Profile.initialised (analyse model) := split ▸ List.mem_append_left _ isFront
  constructor
  · rintro ⟨earlier, listed, assigns⟩
    rcases List.mem_append.mp listed with isLiteral | isCopy
    · obtain ⟨found, membership, image⟩ := List.mem_filterMap.mp isLiteral
      obtain ⟨written, given, rfl⟩ := Option.map_eq_some_iff.mp image
      obtain rfl := eq_of_valueSlot? valid membership entry assigns kept
      exact ⟨membership, .inl (Option.isSome_of_eq_some given)⟩
    · obtain ⟨found, isFront, image⟩ := List.mem_filterMap.mp isCopy
      obtain ⟨binding, -, rfl⟩ := Option.map_eq_some_iff.mp image
      obtain rfl := eq_of_valueSlot? valid (inFront isFront) entry assigns kept
      exact ⟨inFront isFront, .inr isFront⟩
  · rintro ⟨membership, given⟩
    have initial := isSome_initialValue entry
      (exists_entry_of_initialised valid membership).1
    obtain ⟨only, stores⟩ := Code.Program.exists_storesInitial names membership initial
    cases stores with
    | @literal written isNumber =>
        refine ⟨.literal source written, List.mem_append_left _ ?_, kept⟩
        exact List.mem_filterMap.mpr ⟨source, membership, by rw [isNumber]; rfl⟩
    | copy named bound =>
        have isFront : source ∈ front := given.resolve_left fun isNumber => by
          rw [Code.Program.variableName_of_literal isNumber] at named
          cases named
        exact ⟨_, List.mem_append_right _
          (List.mem_filterMap.mpr ⟨source, isFront, Code.Program.copy?_eq_some named bound⟩), kept⟩

/-- A variable that starts with another one reads what has been set exactly if that one starts with
a number or is kept further in front. -/
theorem readsSet_copy_iff (valid : (analyse model).type.isValid)
    (names : NamesFound (analyse model))
    (split : Profile.initialised (analyse model) = front ++ back)
    (entry : (layout model).byRecord.lookup record = some source) :
    Statement.ReadsSet (analyse model)
        (literals (analyse model) ++ front.filterMap (copy? (analyse model)))
        (.copy found source.type source.place) ↔
      source ∈ Profile.initialised (analyse model) ∧
        ((source.initial.initialValue.bind InitialValue.literal).isSome ∨ source ∈ front) := by
  cases kept : valueSlot? source with
  | none =>
      have isIntegration := valueSlot?_eq_none_iff.mp kept
      refine iff_of_false (fun reads => reads.untimed isIntegration) ?_
      rintro ⟨membership, -⟩
      have given := (exists_entry_of_initialised valid membership).1
      simp [isIntegration] at given
  | some slot =>
      rw [← exists_set_iff valid names split entry kept]
      have reads : Statement.reads (analyse model) (.copy found source.type source.place) =
          [slot] := by
        have kept : Slot.of? false source.type source.place = some slot := kept
        rw [Statement.reads, kept]
        rfl
      refine ⟨fun readsSet => readsSet.elements slot (by simp [reads]), fun set => ⟨?_, ?_⟩⟩
      · rw [reads]
        rintro other (_ | ⟨_, ⟨⟩⟩)
        exact set
      · intro isIntegration
        rw [valueSlot?_eq_none_iff.mpr isIntegration] at kept
        cases kept

/-! ## Equations without references -/

section Equations

variable {number order : Nat} {source equation : OrderedEquation} {item : Item}
  {result : AnalysedEquation} {role : Equation.Role} {declaration : Nat}

/-- The value that a statement assigns mentions what its equation mentions. -/
theorem mem_mentions_of_value {mention : Equation.Role × Nat}
    (mentioned : mention ∈
      ((result.expr.assignment?.map Prod.snd).getD result.expr).mentions .plain) :
    mention ∈ result.expr.mentions .plain := by
  cases assignment : result.expr.assignment? with
  | none => rwa [assignment] at mentioned
  | some assigned =>
      obtain ⟨target, right⟩ := assigned
      rw [assignment] at mentioned
      exact Equation.Expr.mem_mentions_of_assignment assignment (.inr mentioned)

theorem ReportedAt.read_of_trueConstant (valid : (analyse model).type.isValid)
    (reportedAt : ReportedAt model place number order source equation item result)
    (isTrue : result.kind = .trueConstant)
    (read : slot ∈ Statement.reads (analyse model) (.equation result)) :
    valueSlot? result.computes = some slot := by
  obtain ⟨⟨role, declaration⟩, mentioned, kept⟩ := List.mem_filterMap.mp read
  exact (reportedAt.mention_of_trueConstant valid isTrue (mem_mentions_of_value mentioned) kept).2.2

/-- An equation for a true constant reads nothing exactly if it is explicit. -/
theorem ReportedAt.reads_eq_nil_iff (valid : (analyse model).type.isValid)
    (reportedAt : ReportedAt model place number order source equation item result)
    (isTrue : result.kind = .trueConstant) :
    Statement.reads (analyse model) (.equation result) = [] ↔
      ∃ declaration right, (analyse model).IsExplicit result declaration right := by
  obtain ⟨only, -, record, rfl, type⟩ := reportedAt.items_of_trueConstant valid isTrue
  have isPlain := reportedAt.role_value valid
  constructor
  · intro none
    have silent {mention : Equation.Role × Nat} (mentioned : mention ∈
        ((result.expr.assignment?.map Prod.snd).getD result.expr).mentions .plain) :
        Code.slot? (analyse model) mention = Option.none := by
      rw [Option.eq_none_iff_forall_ne_some]
      intro slot kept
      have read : slot ∈ Statement.reads (analyse model) (.equation result) :=
        List.mem_filterMap.mpr ⟨mention, mentioned, kept⟩
      simp [none] at read
    have unread {other : Nat} (mentioned : (.plain, other) ∈
        ((result.expr.assignment?.map Prod.snd).getD result.expr).mentions .plain) :
        ¬(analyse model).Binds result.computes other := by
      intro binds
      have kept := (slot?_of_binds binds).symm.trans (silent mentioned)
      rw [valueSlot?_eq_none_iff, type] at kept
      cases kept
    -- The class that the equation computes is mentioned, so it is what is assigned to.
    have asked : .value record ∈ source.items := by simp [only]
    obtain ⟨declaration, mentioned, recorded⟩ := (value_mem_items reportedAt.membership).mp asked
    have binds := (reportedAt.binds_iff valid mentioned).mpr recorded
    have inResult : (.plain, declaration) ∈ result.expr.mentions .plain := by
      rwa [reportedAt.expr, Equation.Expr.mentions_rescale _ _ _ _ (by simp)]
    cases assignment : result.expr.assignment? with
    | none =>
        rw [assignment] at unread
        exact absurd binds (unread inResult)
    | some assigned =>
        obtain ⟨⟨role, target⟩, right⟩ := assigned
        rw [assignment] at unread
        obtain ⟨rfl, bindsTarget⟩ := reportedAt.binds_of_trueConstant valid isTrue
          (Equation.Expr.mem_mentions_of_assignment assignment (.inl rfl))
          (Equation.Expr.role_of_assignment assignment)
        exact ⟨target, right, isPlain ▸ assignment, bindsTarget,
          fun other mentioned => unread (isPlain ▸ mentioned)⟩
  · rintro ⟨declaration, right, explicit⟩
    rw [explicit.reads_eq, List.filterMap_eq_nil_iff]
    rintro ⟨role, other⟩ mentioned
    rw [Option.eq_none_iff_forall_ne_some]
    intro slot kept
    obtain ⟨rfl, binds, -⟩ := reportedAt.mention_of_trueConstant valid isTrue
      (Equation.Expr.mem_mentions_of_assignment explicit.assigns (.inr mentioned)) kept
    exact explicit.apart other (isPlain ▸ mentioned) binds

/-- Nothing has set the class of an equation for a true constant when the equation is
evaluated. -/
theorem not_set_before (valid : (analyse model).type.isValid)
    (reported : (analyse model).equations[place]? = some result)
    (isTrue : result.kind = .trueConstant) {before after : Code.Places}
    (split : (Schedule.ofModel (analyse model)).initialise = before ++ place :: after)
    (kept : valueSlot? result.computes = some slot) :
    ∀ earlier ∈ literals (analyse model) ++ Code.Program.copies (analyse model) ++
        Code.Program.equations (analyse model) before,
      earlier.target? (analyse model) ≠ some slot := by
  obtain ⟨_, _, _, _, _, reportedAt⟩ := exists_reportedAt valid reported
  have given {image : AnalysedVariable → Option Statement} {earlier : Statement}
      (gives : Code.Program.Gives (analyse model) image)
      (listed : earlier ∈ (Profile.initialised (analyse model)).filterMap image) :
      earlier.target? (analyse model) ≠ some slot := by
    intro assigns
    obtain ⟨found, membership, stored⟩ := List.mem_filterMap.mp listed
    exact reportedAt.valueSlot?_ne_of_trueConstant valid isTrue membership
      ((gives _ _ stored).symm.trans assigns) kept
  intro earlier listed assigns
  rcases List.mem_append.mp listed with isInitial | isEquation
  · rcases List.mem_append.mp isInitial with isLiteral | isCopy
    · exact given Code.Program.gives_literal isLiteral assigns
    · exact given Code.Program.gives_copy isCopy assigns
  · -- An equation that assigns there computes the class, so it would be evaluated twice.
    obtain ⟨other, isBefore, image⟩ := List.mem_filterMap.mp isEquation
    obtain ⟨result', reported', rfl⟩ := Option.map_eq_some_iff.mp image
    have isTrue' := (mem_initialise_iff valid reported').mp
      (split ▸ List.mem_append_left _ isBefore)
    obtain ⟨_, _, _, _, _, reportedAt'⟩ := exists_reportedAt valid reported'
    have keptOther := reportedAt'.target_of_trueConstant valid isTrue' assigns
    obtain rfl := place_eq_of_cell valid reported' reported (cell_eq_of_slot keptOther kept)
    have once : (Schedule.ofModel (analyse model)).initialise.Nodup :=
      Code.nodup_evaluateWhere (fun _ => true)
        (fun _ equation => equation.kind == .trueConstant) List.nodup_nil
    rw [split, List.nodup_middle, List.nodup_cons] at once
    exact once.1 (List.mem_append_left _ isBefore)

end Equations

/-! ## The procedure -/

section Procedure

variable (accepted : model.validate strict = .ok ()) (valid : (analyse model).type.isValid)

section Reads

variable (reads : ∀ before statement after,
  initialisation (analyse model) = before ++ statement :: after →
    statement.ReadsSet (analyse model) before)

include accepted valid reads in
theorem namesInOrder_of_reads : NamesInOrder (analyse model) := by
  intro front found back name split named
  have membership : found ∈ Profile.initialised (analyse model) := by simp [split]
  obtain ⟨_, source, -, stands, bound⟩ :=
    exists_standsFor_of_initial accepted valid membership named
  obtain ⟨record, -, entry⟩ := exists_entry_of_standsFor valid stands
  have stored := Code.Program.copy?_eq_some named bound
  have readsSet := reads (literals (analyse model) ++ front.filterMap (copy? (analyse model)))
    (.copy found source.type source.place)
    (back.filterMap (copy? (analyse model)) ++ Code.Program.equations (analyse model)
      (Schedule.ofModel (analyse model)).initialise) (by
        change _ ++ (Profile.initialised (analyse model)).filterMap (copy? (analyse model)) ++
          _ = _
        rw [split, List.filterMap_append, List.filterMap_cons_some stored]
        simp)
  obtain ⟨given, order⟩ :=
    (readsSet_copy_iff valid (namesFound accepted valid) split entry).mp readsSet
  exact ⟨source, given, bound, order⟩

include valid reads in
theorem isExplicit_of_reads {result : AnalysedEquation}
    (membership : result ∈ (analyse model).equations) (isTrue : result.kind = .trueConstant) :
    (∃ declaration right, (analyse model).IsExplicit result declaration right) ∧
      ¬Statement.NamesIntegration (analyse model) (.equation result) := by
  obtain ⟨place, reported⟩ := List.mem_iff_getElem?.mp membership
  obtain ⟨_, _, _, _, _, reportedAt⟩ := exists_reportedAt valid reported
  obtain ⟨before, after, split⟩ :=
    List.append_of_mem ((mem_initialise_iff valid reported).mpr isTrue)
  have readsSet := reads (literals (analyse model) ++ Code.Program.copies (analyse model) ++
      Code.Program.equations (analyse model) before) (.equation result)
    (Code.Program.equations (analyse model) after) (by
      rw [initialisation, split, Code.Program.equations_middle before after reported]
      simp)
  refine ⟨(reportedAt.reads_eq_nil_iff valid isTrue).mp ?_, readsSet.untimed⟩
  refine List.eq_nil_iff_forall_not_mem.mpr fun slot read => ?_
  obtain ⟨earlier, listed, assigns⟩ := readsSet.elements slot read
  exact not_set_before valid reported isTrue split
    (reportedAt.read_of_trueConstant valid isTrue read) earlier listed assigns

end Reads

variable {before after : List Statement} {statement : Statement}

/-- Numbers read nothing. -/
theorem readsSet_of_mem_literals (listed : statement ∈ literals (analyse model)) :
    statement.ReadsSet (analyse model) before := by
  obtain ⟨found, -, image⟩ := List.mem_filterMap.mp listed
  obtain ⟨written, -, rfl⟩ := Option.map_eq_some_iff.mp image
  exact ⟨by simp [Statement.reads], id⟩

include accepted valid in
theorem readsSet_of_namesInOrder (inOrder : NamesInOrder (analyse model))
    (split : Code.Program.copies (analyse model) = before ++ statement :: after) :
    statement.ReadsSet (analyse model) (literals (analyse model) ++ before) := by
  obtain ⟨front, found, back, kept, image, rfl⟩ := Code.Program.split_filterMap split
  obtain ⟨binding, bound, rfl⟩ := Option.map_eq_some_iff.mp image
  obtain ⟨name, named, bound⟩ := Option.bind_eq_some_iff.mp bound
  obtain ⟨source, given, same, order⟩ := inOrder front found back name kept named
  obtain rfl := Option.some.inj (bound.symm.trans same)
  obtain ⟨-, record, -, entry⟩ := exists_entry_of_initialised valid given
  exact (readsSet_copy_iff valid (namesFound accepted valid) kept entry).mpr ⟨given, order⟩

include valid in
theorem readsSet_of_isExplicit
    (explicit : ∀ result ∈ (analyse model).equations, result.kind = .trueConstant →
      (∃ declaration right, (analyse model).IsExplicit result declaration right) ∧
        ¬Statement.NamesIntegration (analyse model) (.equation result))
    (listed : statement ∈ Code.Program.equations (analyse model)
      (Schedule.ofModel (analyse model)).initialise) :
    statement.ReadsSet (analyse model) before := by
  obtain ⟨place, evaluated, image⟩ := List.mem_filterMap.mp listed
  obtain ⟨result, reported, rfl⟩ := Option.map_eq_some_iff.mp image
  have isTrue := (mem_initialise_iff valid reported).mp evaluated
  obtain ⟨_, _, _, _, _, reportedAt⟩ := exists_reportedAt valid reported
  obtain ⟨isExplicit, untimed⟩ := explicit result (List.mem_of_getElem? reported) isTrue
  refine ⟨?_, untimed⟩
  rw [(reportedAt.reads_eq_nil_iff valid isTrue).mpr isExplicit]
  exact fun _ none => absurd none List.not_mem_nil

end Procedure

/-- The procedure that initialises states and constants reads what it has set, and never the
variable of integration, exactly if all initial values that are names are in order and the equations
that are evaluated there are explicit and do not name that variable. An initial value is in order if
it names a state or constant that starts with a number or is kept in front of the variable. -/
theorem initialisation_reads_set_iff (accepted : model.validate strict = .ok ())
    (valid : (analyse model).type.isValid) :
    (∀ profile : Profile,
      profile.procedure .implementationInitializeStatesAndConstantsMethod
          (Code.Program.text (analyse model) profile (initialisation (analyse model))) ∈
        profile.implementationSections (analyse model)) ∧
    ((∀ before statement after, initialisation (analyse model) = before ++ statement :: after →
        statement.ReadsSet (analyse model) before) ↔
      NamesInOrder (analyse model) ∧
        ∀ result ∈ (analyse model).equations, result.kind = .trueConstant →
          (∃ declaration right, (analyse model).IsExplicit result declaration right) ∧
            ¬Statement.NamesIntegration (analyse model) (.equation result)) := by
  refine ⟨Code.Program.procedure_mem_sections (analyse model), fun reads => ⟨?_, ?_⟩, ?_⟩
  · exact namesInOrder_of_reads accepted valid reads
  · exact fun result membership isTrue => isExplicit_of_reads valid reads membership isTrue
  · -- The statement is for a number, for a name or for an equation.
    rintro ⟨inOrder, explicit⟩ before statement after split
    rcases Code.Program.split_append split with ⟨rest, initial⟩ | ⟨middle, rfl, equations⟩
    · rcases Code.Program.split_append initial with ⟨rest, isLiteral⟩ | ⟨middle, rfl, isCopy⟩
      · exact readsSet_of_mem_literals (by simp [isLiteral])
      · exact readsSet_of_namesInOrder accepted valid inOrder isCopy
    · exact readsSet_of_isExplicit valid explicit (by simp [equations])

/-! ## Two tanks -/

theorem initialised_tanks : Profile.initialised (analyse tanks) =
    [⟨⟨"tanks", "x", "litre", some (.number 1)⟩, ⟨"tanks", "x", "litre", some (.number 1)⟩,
      .state, 0⟩,
     ⟨⟨"tanks", "y", "litre", some (.text " x ")⟩, ⟨"tanks", "y", "litre", some (.text " x ")⟩,
      .state, 1⟩] := by
  rw [initialised_eq valid_tanks, layout, registry_tanks]
  cbv

theorem bindingOf?_tanks : (analyse tanks).bindingOf? "tanks" "x" = some (.state, 0) := by
  have declared : (analyse tanks).declarationOf? "tanks" "x" = some 1 := by
    rw [AnalysedModel.declarationOf?, declarations_analyse valid_tanks]
    cbv
  have bound : (analyse tanks).binding? 1 = some (.state, 0) := by
    rw [binding?_analyse valid_tanks (by decide +kernel), layout, registry_tanks]
    cbv
  rw [AnalysedModel.bindingOf?, declared, Option.bind_some, bound]

/-- The second tank starts with the level of the first one, which has been set by then. -/
theorem tanks_read_set : tanks.validate false = .ok () ∧ (analyse tanks).type.isValid ∧
    ∀ before statement after, initialisation (analyse tanks) = before ++ statement :: after →
      statement.ReadsSet (analyse tanks) before := by
  refine ⟨validate_tanks, valid_tanks,
    (initialisation_reads_set_iff validate_tanks valid_tanks).2.mpr ⟨?_, ?_⟩⟩
  · intro front found back name split named
    rw [initialised_tanks] at split
    rcases front with _ | ⟨first, _ | ⟨second, front⟩⟩
    · obtain ⟨rfl, -⟩ := List.cons.inj split
      cases named
    · obtain ⟨rfl, rest⟩ := List.cons.inj split
      obtain ⟨rfl, -⟩ := List.cons.inj rest
      obtain rfl := (Option.some.inj (name_tanks.symm.trans named))
      exact ⟨_, initialised_tanks ▸ List.mem_cons_self, bindingOf?_tanks, .inl rfl⟩
    · obtain ⟨-, rest⟩ := List.cons.inj split
      obtain ⟨-, rest⟩ := List.cons.inj rest
      cases front <;> cases rest
  · intro result membership isTrue
    obtain ⟨place, reported⟩ := List.mem_iff_getElem?.mp membership
    obtain ⟨_, _, _, _, _, reportedAt⟩ := exists_reportedAt valid_tanks reported
    obtain ⟨-, -, record, rfl, type⟩ := reportedAt.items_of_trueConstant valid_tanks isTrue
    have kind := (isEntry reportedAt.entry).type
    rw [type, registry_tanks] at kind
    rcases record with _ | _ | _ | record <;> cases kind

/-! ## A chain of names -/

/-- A constant that starts with the second one, which starts with the third one. -/
def chained : Model where
  schema := "1.0"
  name := "chained"
  units := []
  components :=
    [{ name := "c"
       declarations :=
        [⟨"a", "dimensionless", some (.text "b"), none⟩,
         ⟨"b", "dimensionless", some (.text "c"), none⟩,
         ⟨"c", "dimensionless", some (.number 3), none⟩]
       math := none
       components := []
       source := none }]
  connections := []

theorem gathered_chained : Gathered.ofIndex (index chained) =
    ⟨[⟨0, 0, 0, .constant, none, none⟩, ⟨1, 1, 1, .constant, none, none⟩,
      ⟨2, 2, 2, .constant, none, none⟩], [], []⟩ := by
  cbv

theorem derivatives_chained :
    derivatives chained = ⟨Gathered.ofIndex (index chained), none⟩ := by
  rw [derivatives, gathered_chained]
  cbv

theorem registry_chained : (final chained).registry =
    [⟨0, 0, 0, .constant, some 0, none⟩, ⟨1, 1, 1, .constant, some 1, none⟩,
     ⟨2, 2, 2, .constant, some 2, none⟩] := by
  rw [final, start, derivatives_chained, gathered_chained]
  cbv

theorem type_chained : (analyse chained).type = .algebraic := by
  have gathered : (Gathered.ofIndex (index chained)).issues = [] := by rw [gathered_chained]
  rw [type_analyse gathered (by rw [derivatives_chained, gathered]), registry_chained,
    derivatives_chained]
  rfl

theorem valid_chained : (analyse chained).type.isValid := by
  rw [type_chained]
  rfl

/-- One of the constants as it is reported. -/
def chainedConstant (name : String) (initial : InitialValue) (place : Nat) : AnalysedVariable where
  initial := ⟨"c", name, "dimensionless", some initial⟩
  declared := ⟨"c", name, "dimensionless", some initial⟩
  type := .constant
  place := place

theorem initialised_chained : Profile.initialised (analyse chained) =
    [chainedConstant "a" (.text "b") 0, chainedConstant "b" (.text "c") 1,
      chainedConstant "c" (.number 3) 2] := by
  rw [initialised_eq valid_chained, layout, registry_chained]
  cbv

theorem bindingOf?_chained : (analyse chained).bindingOf? "c" "b" = some (.constant, 1) := by
  have declared : (analyse chained).declarationOf? "c" "b" = some 1 := by
    rw [AnalysedModel.declarationOf?, declarations_analyse valid_chained]
    cbv
  have bound : (analyse chained).binding? 1 = some (.constant, 1) := by
    rw [binding?_analyse valid_chained (by decide +kernel), layout, registry_chained]
    cbv
  rw [AnalysedModel.bindingOf?, declared, Option.bind_some, bound]

theorem literals_chained : literals (analyse chained) =
    [.literal (chainedConstant "c" (.number 3) 2) "3"] := by
  rw [literals, initialised_chained]
  rfl

theorem copies_chained : ∃ later, Code.Program.copies (analyse chained) =
    .copy (chainedConstant "a" (.text "b") 0) .constant 1 :: later := by
  change ∃ later, (Profile.initialised (analyse chained)).filterMap (copy? (analyse chained)) = _
  have named : (chainedConstant "a" (.text "b") 0).initial.initialValue.bind
      InitialValue.variableName = some "b" := rfl
  have stored := Code.Program.copy?_eq_some named bindingOf?_chained
  rw [initialised_chained]
  exact ⟨_, List.filterMap_cons_some stored⟩

/-- The first constant gets the value of the second one before that one gets any. -/
theorem chained_reads_unset :
    chained.validate false = .ok () ∧ (analyse chained).type = .algebraic ∧
      ∃ before statement after, initialisation (analyse chained) = before ++ statement :: after ∧
        ∃ slot ∈ statement.reads (analyse chained),
          ∀ earlier ∈ before, earlier.target? (analyse chained) ≠ some slot := by
  obtain ⟨later, first⟩ := copies_chained
  refine ⟨by decide +kernel, type_chained, literals (analyse chained), _, _,
    by rw [initialisation, first, List.append_assoc, List.cons_append],
    .other 1, List.mem_singleton_self _, ?_⟩
  rw [literals_chained, List.forall_mem_singleton]
  rintro ⟨⟩

end Analysis.Stage

end ComponentModel
