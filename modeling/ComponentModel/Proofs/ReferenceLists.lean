import ComponentModel.Proofs.Arena.Reading
import ComponentModel.Proofs.Arena.Roles
import ComponentModel.Proofs.Gathering

/-!
# References listed for an equation

While an equation is read, the records of the variables that it mentions are listed by the roles that
are passed down to the mentions. The finished tree tells the same roles from below, and its
references in each role have just these records. Every name that is read is either a reference of
the tree or reported, never both.
-/

namespace ComponentModel.Equation

variable {declaration? : String → Option Nat} {names : List String} {mentions : List Mention}

/-! ## Names that are read -/

mutual

/-- The names of variables that are read in an element, in order. -/
def namesRead : Markup.Element → List String
  | .mk name _ children text =>
      if name == "apply" then
        match children with
        | [] => []
        | operator :: arguments =>
            if (Operator.ofElement? operator.name).isSome then
              namesReadAmong arguments.length arguments
            else []
      else if name == "piecewise" then namesReadAmong children.length children
      else if name == "piece" then namesReadAmong 2 children
      else if name == "bvar" then namesReadAmong 2 children
      else if name == "otherwise" then namesReadAmong 1 children
      else if name == "degree" then namesReadAmong 1 children
      else if name == "logbase" then namesReadAmong 1 children
      else if name == "ci" then [Text.trim text]
      else []

/-- The names that are read in the first elements of a list. -/
def namesReadAmong : (count : Nat) → List Markup.Element → List String
  | 0, _ => []
  | _ + 1, [] => []
  | count + 1, first :: rest => namesRead first ++ namesReadAmong count rest

end

/-- The mention of a name: by its declaration if it has one, otherwise as it is written. -/
inductive IsMention (declaration? : String → Option Nat) : String → Mention → Prop
  | declared {name : String} {role : Role} {declaration : Nat}
      (found : declaration? name = some declaration) :
      IsMention declaration? name (.declared role declaration)
  | undeclared {name : String} (missing : declaration? name = none) :
      IsMention declaration? name (.undeclared name)

/-- Every name is mentioned once, in order. -/
abbrev Mentions (declaration? : String → Option Nat) (names : List String)
    (mentions : List Mention) : Prop :=
  List.Forall₂ (IsMention declaration?) names mentions

theorem mentions_name (role : Role) (written : String) :
    Mentions declaration? [written] (Read.name declaration? role written).2 := by
  unfold Read.name
  cases found : declaration? written with
  | none => exact .cons (.undeclared found) .nil
  | some declaration => exact .cons (.declared found) .nil

/-- The names in an element and its mentions are both told by the name of the element. -/
theorem Mentions.ite {condition : Prop} [Decidable condition] {one two : List String}
    {first second : Read} (isFirst : Mentions declaration? one first.2)
    (isSecond : Mentions declaration? two second.2) :
    Mentions declaration? (if condition then one else two)
      (if condition then first else second).2 := by
  split
  case isTrue => exact isFirst
  case isFalse => exact isSecond

/-- The names in both children of an operator are mentioned one after the other. -/
theorem Mentions.apply {one two : List String} {left right : Read} (operator : Operator)
    (onLeft : Mentions declaration? one left.2) (onRight : Mentions declaration? two right.2) :
    Mentions declaration? (one ++ two) (Read.apply operator left right).2 :=
  List.rel_append onLeft onRight

mutual

theorem mentions_readElement (outermost : Bool) (role : Role) (element : Markup.Element) :
    Mentions declaration? (namesRead element)
      (readElement declaration? outermost role element).2 := by
  cases element with
  | mk name attributes children text =>
    unfold readElement namesRead
    apply Mentions.ite
    · cases children with
      | nil => exact .nil
      | cons head arguments =>
        cases found : Operator.ofElement? head.name with
        | none =>
          simp only [found]
          exact .nil
        | some operator =>
          simp only [found]
          exact mentions_readArguments _ _ arguments
    apply Mentions.ite
    · exact mentions_readArguments _ _ children
    apply Mentions.ite
    · exact mentions_readPair _ _ children
    apply Mentions.ite
    · exact mentions_readPair _ _ children
    apply Mentions.ite
    · exact mentions_readFirst _ children
    apply Mentions.ite
    · exact mentions_readFirst _ children
    apply Mentions.ite
    · exact mentions_readFirst _ children
    apply Mentions.ite
    · exact mentions_name role _
    split
    · exact .nil
    · split
      case h_1 operator _ => cases operator.isConstant <;> exact .nil
      case h_2 => exact .nil

theorem mentions_readArguments (operator : Operator) (role : Role)
    (elements : List Markup.Element) :
    Mentions declaration? (namesReadAmong elements.length elements)
      (readArguments declaration? operator role elements).2 := by
  match elements with
  | [] => exact .nil
  | [only] => exact .apply operator (mentions_readElement false role only) .nil
  | [one, two] =>
      simp only [namesReadAmong, List.length_cons, List.length_nil, List.append_nil]
      exact .apply operator (mentions_readElement false role one)
        (mentions_readElement false role two)
  | one :: two :: three :: rest =>
      exact .apply operator (mentions_readElement false role one)
        (mentions_readArguments operator role (two :: three :: rest))

theorem mentions_readPair (operator : Operator) (role : Role) (elements : List Markup.Element) :
    Mentions declaration? (namesReadAmong 2 elements)
      (readPair declaration? operator role elements).2 := by
  match elements with
  | [] => exact .nil
  | [only] => exact .apply operator (mentions_readElement false role only) .nil
  | one :: two :: _ =>
      simp only [namesReadAmong, List.append_nil]
      exact .apply operator (mentions_readElement false role one)
        (mentions_readElement false role two)

theorem mentions_readFirst (operator : Operator) (elements : List Markup.Element) :
    Mentions declaration? (namesReadAmong 1 elements)
      (readFirst declaration? operator elements).2 := by
  match elements with
  | [] => exact .nil
  | first :: _ =>
      simp only [namesReadAmong]
      exact .apply operator (mentions_readElement false .plain first) .nil

end

/-- The name that is mentioned, if it is not declared. -/
def Mention.undeclared? : Mention → Option String
  | .declared _ _ => none
  | .undeclared name => some name

namespace Mentions

theorem declared (told : Mentions declaration? names mentions) :
    (mentions.filterMap Mention.declared?).map Prod.snd = names.filterMap declaration? := by
  induction told with
  | nil => rfl
  | cons isMention _ ih =>
      cases isMention with
      | declared found => simp [Mention.declared?, found, ih]
      | undeclared missing => simp [List.filterMap_cons, Mention.declared?, missing, ih]

theorem undeclared (told : Mentions declaration? names mentions) :
    mentions.filterMap Mention.undeclared? = names.filter fun name => (declaration? name).isNone := by
  induction told with
  | nil => rfl
  | cons isMention _ ih =>
      cases isMention with
      | declared found => simp [List.filterMap_cons, Mention.undeclared?, found, ih]
      | undeclared missing => simp [Mention.undeclared?, missing, ih]

end Mentions

/-- A name that is not declared adds no node, wherever it is read. -/
theorem draftElement_undeclared {text : String} (missing : declaration? (Text.trim text) = none)
    (outermost : Bool) (role : Role) (parent? : Option Nat) (draft : Draft)
    (attributes : List (String × String)) (children : List Markup.Element) :
    draftElement declaration? outermost role parent? draft (.mk "ci" attributes children text) =
      ⟨none, draft.arena, draft.mentions ++ [.undeclared (Text.trim text)]⟩ := by
  unfold draftElement
  simp [Draft.name, missing, Draft.absent, Draft.mention]

end ComponentModel.Equation

namespace ComponentModel.Analysis

open Equation (Mention Role)

/-- The records of the classes of declarations, each of them once and in the order of the first
declaration. -/
def Registry.recordsOf (registry : Registry) (index : Index) (declarations : List Nat) : List Nat :=
  (declarations.filterMap (registry.find? index)).eraseDups

/-- The declarations that are mentioned in a role. -/
def mentionedIn (role : Role) (mentions : List (Role × Nat)) : List Nat :=
  (mentions.filter fun mention => mention.1 == role).map Prod.snd

variable {index : Index} {registry larger : Registry} {mentions : List (Role × Nat)}
  {references : References} {role : Role} {declaration number : Nat}

theorem addNew_eraseDups (number : Nat) (numbers : List Nat) :
    References.addNew number numbers.eraseDups = (numbers ++ [number]).eraseDups := by
  rw [List.eraseDups_append, References.addNew, List.contains_eq_mem]
  by_cases known : number ∈ numbers
  · simp [known, List.removeAll]
  · simp [known, List.removeAll, List.eraseDups_cons]

namespace Registry

theorem Within.find?_eq (within : registry.Within index larger)
    (found : (registry.find? index declaration).isSome) :
    larger.find? index declaration = registry.find? index declaration := by
  obtain ⟨number, isNumber⟩ := Option.isSome_iff_exists.mp found
  rw [isNumber, within _ _ isNumber]

/-- Records that are made later are none of the declarations that have records. -/
theorem Within.recordsOf_eq (within : registry.Within index larger) {declarations : List Nat}
    (found : ∀ declaration ∈ declarations, (registry.find? index declaration).isSome) :
    larger.recordsOf index declarations = registry.recordsOf index declarations := by
  unfold recordsOf
  congr 1
  exact List.filterMap_congr fun declaration listed => within.find?_eq (found declaration listed)

/-- One more mention adds the record of its class in its own role. -/
theorem recordsOf_mentionedIn_append (found : registry.find? index declaration = some number)
    (wanted role : Role) (mentions : List (Role × Nat)) :
    registry.recordsOf index (mentionedIn wanted (mentions ++ [(role, declaration)])) =
      if role = wanted then
        References.addNew number (registry.recordsOf index (mentionedIn wanted mentions))
      else registry.recordsOf index (mentionedIn wanted mentions) := by
  unfold recordsOf mentionedIn
  split
  case isTrue same => simp [same, addNew_eraseDups, found]
  case isFalse different => simp [different]

end Registry

/-- The references of mentions are the records of the classes that are mentioned in each role. -/
structure Notes (index : Index) (registry : Registry) (mentions : List (Role × Nat))
    (references : References) : Prop where
  found : ∀ mention ∈ mentions, (registry.find? index mention.2).isSome
  plain : references.plain = registry.recordsOf index (mentionedIn .plain mentions)
  differentiated :
    references.differentiated = registry.recordsOf index (mentionedIn .differentiated mentions)

namespace Notes

theorem empty : Notes index registry [] ⟨[], []⟩ :=
  ⟨nofun, rfl, rfl⟩

theorem found_of_mem (notes : Notes index registry mentions references)
    (listed : declaration ∈ mentionedIn role mentions) :
    (registry.find? index declaration).isSome := by
  obtain ⟨mention, isMention, rfl⟩ := List.mem_map.mp listed
  exact notes.found mention (List.mem_of_mem_filter isMention)

theorem mono (notes : Notes index registry mentions references)
    (within : registry.Within index larger) : Notes index larger mentions references where
  found := by
    intro mention listed
    rw [within.find?_eq (notes.found mention listed)]
    exact notes.found mention listed
  plain := by
    rw [within.recordsOf_eq fun _ listed => notes.found_of_mem listed]
    exact notes.plain
  differentiated := by
    rw [within.recordsOf_eq fun _ listed => notes.found_of_mem listed]
    exact notes.differentiated

/-- Noting one more mention lists its record in its role, unless it is listed there already. -/
theorem note (notes : Notes index registry mentions references) (role : Role)
    (found : registry.find? index declaration = some number) :
    Notes index registry (mentions ++ [(role, declaration)]) (references.note role number) where
  found := by
    intro mention listed
    rcases List.mem_append.mp listed with earlier | new
    · exact notes.found mention earlier
    · rw [List.mem_singleton.mp new, found]
      rfl
  plain := by
    rw [Registry.recordsOf_mentionedIn_append found, ← notes.plain]
    cases role <;> rfl
  differentiated := by
    rw [Registry.recordsOf_mentionedIn_append found, ← notes.differentiated]
    cases role <;> rfl

end Notes

namespace Gathered

/-- Taking in mentions lists their records by roles, and reports the names that are not declared. -/
theorem notes_mentions (component : String) (mentions : List Mention) {gathered : Gathered}
    {references : References} {before : List (Role × Nat)}
    (notes : Notes index gathered.registry before references) :
    let after := mentions.foldl (mention index component) (gathered, references)
    Notes index after.1.registry (before ++ mentions.filterMap Mention.declared?) after.2 ∧
      after.1.equations = gathered.equations ∧
      after.1.issues = gathered.issues ++ (mentions.filterMap Mention.undeclared?).map
        fun name => .undefinedVariable ⟨component, name⟩ := by
  induction mentions generalizing gathered references before with
  | nil => simpa using notes
  | cons head rest ih =>
      cases head with
      | undeclared name =>
          have step := @ih (gathered.report (.undefinedVariable ⟨component, name⟩)) references before
            notes
          simpa [mention, report, List.filterMap_cons, Mention.declared?, Mention.undeclared?,
            List.append_assoc] using step
      | declared role declaration =>
          have within := Registry.within_resolve index gathered.registry declaration
          have found := gathered.registry.find?_resolve index declaration
          have step := @ih { gathered with
            registry := (gathered.registry.resolve index declaration).2 } _ _
            ((notes.mono within).note role found)
          simpa [mention, List.filterMap_cons, Mention.declared?, Mention.undeclared?,
            List.append_assoc] using step

/-- The references that are listed for an equation are those of its tree: the records of what stands
directly in a derivative on the one hand, and of what stands anywhere but there and in the bound
variable of a derivative on the other. -/
structure Lists (index : Index) (registry : Registry) (arena : Equation.Arena)
    (equation : OrderedEquation) : Prop where
  tree : equation.expr = arena.expr
  found : ∀ declaration ∈ arena.references fun _ => true,
    (registry.find? index declaration).isSome
  differentiated : equation.differentiated =
    registry.recordsOf index (arena.references arena.isDifferentiated)
  plain : equation.plain = registry.recordsOf index
    (arena.references fun node => !arena.isDifferentiated node && !arena.isBound node)

theorem lists_of_notes {arena : Equation.Arena} {expr : Equation.Expr}
    (notes : Notes index registry (expr.mentions .plain) references)
    (represents : arena.Represents expr) (component : Nat) :
    Lists index registry arena
      (.new expr component references.plain references.differentiated) where
  tree := represents.expr_eq.symm
  found := by
    rw [Equation.Arena.references_all represents]
    intro declaration listed
    obtain ⟨mention, isMention, rfl⟩ := List.mem_map.mp listed
    exact notes.found mention isMention
  differentiated := by
    rw [Equation.Arena.references_eq represents (· == .differentiated)
      Equation.Arena.isDifferentiated_eq]
    exact notes.differentiated
  plain := by
    rw [Equation.Arena.references_eq represents (· == .plain) Equation.Arena.isPlain_eq]
    exact notes.plain

theorem addEquation_of_isPresent {component : Nat} {element : Markup.Element}
    (present : (Equation.readEquation (index.lookup? component) element).1.isPresent = true)
    (gathered : Gathered) (name : String) :
    addEquation index component name gathered element =
      let read := Equation.readEquation (index.lookup? component) element
      let after := read.2.foldl (mention index name) (gathered, ⟨[], []⟩)
      { after.1 with
        equations := after.1.equations ++
          [.new read.1 component after.2.plain after.2.differentiated] } := by
  simp [addEquation, present]

/-- An equation that can be read is taken in with the references of its tree. Its tree refers to the
names that are read and declared, and nothing else; each other name that is read is reported once,
and adds no node. -/
theorem addEquation_lists {component : Nat} {element : Markup.Element} {arena : Equation.Arena}
    (drafted : (Equation.draftEquation (index.lookup? component) element).1 = some arena)
    {gathered after : Gathered} {name : String}
    (added : addEquation index component name gathered element = after) :
    (∃ equation, after.equations = gathered.equations ++ [equation] ∧
      Lists index after.registry arena equation) ∧
    arena.references (fun _ => true) =
      (Equation.namesRead element).filterMap (index.lookup? component) ∧
    after.issues = gathered.issues ++
      ((Equation.namesRead element).filter fun read => (index.lookup? component read).isNone).map
        (fun read => .undefinedVariable ⟨name, read⟩) ∧
    ∀ text, index.lookup? component (Text.trim text) = none →
      ∀ outermost role parent? draft attributes children,
        Equation.draftElement (index.lookup? component) outermost role parent? draft
            (.mk "ci" attributes children text) =
          ⟨none, draft.arena, draft.mentions ++ [.undeclared (Text.trim text)]⟩ := by
  obtain ⟨present, isArena⟩ := Equation.draftEquation_eq_some_iff.mp drafted
  rw [addEquation_of_isPresent present] at added
  subst added
  have agrees := Equation.agrees_readElement (index.lookup? component) true .plain element
  have told : Equation.Mentions (index.lookup? component) (Equation.namesRead element)
      (Equation.readEquation (index.lookup? component) element).2 :=
    Equation.mentions_readElement true .plain element
  have represents : arena.Represents (Equation.readEquation (index.lookup? component) element).1 :=
    isArena ▸ Equation.Arena.represents_ofExpr _
  have empty : Notes index gathered.registry [] ⟨[], []⟩ := .empty
  obtain ⟨notes, equations, issues⟩ := notes_mentions name
    (Equation.readEquation (index.lookup? component) element).2 empty
  rw [List.nil_append, Equation.readEquation, agrees.mentions, ← Equation.readEquation] at notes
  rw [told.undeclared] at issues
  constructor
  · exact ⟨_, congrArg (· ++ [_]) equations, lists_of_notes notes represents component⟩
  · constructor
    · rw [Equation.Arena.references_all represents, Equation.readEquation, ← agrees.mentions]
      exact told.declared
    · constructor
      · exact issues
      · intro text missing outermost role parent? draft attributes children
        exact Equation.draftElement_undeclared missing ..

/-- A component with a clock and a volume. -/
def bottle : Index :=
  .ofTrees [.mk "bottle" [⟨"t", "second", none, none⟩, ⟨"v", "litre", none, none⟩] none [] none]

/-- The rate of `v` is twice `v` and something that is not declared. -/
def fillElement : Markup.Element :=
  .mk "apply" [] [.mk "eq" [] [] "",
    .mk "apply" [] [.mk "diff" [] [] "", .mk "bvar" [] [.mk "ci" [] [] "t"] "",
      .mk "ci" [] [] "v"] "",
    .mk "apply" [] [.mk "plus" [] [] "", .mk "ci" [] [] "v", .mk "ci" [] [] " inflow ",
      .mk "ci" [] [] "v"] ""] ""

/-- The volume is listed once in each role, the clock in none, and the inflow is reported. -/
theorem addEquation_lists_fillElement :
    ∃ arena equation, (Equation.draftEquation (bottle.lookup? 0) fillElement).1 = some arena ∧
      (addEquation bottle 0 "bottle" ⟨[], [], []⟩ fillElement).equations = [equation] ∧
      Lists bottle (addEquation bottle 0 "bottle" ⟨[], [], []⟩ fillElement).registry arena
        equation ∧
      arena.references (fun _ => true) = [0, 1, 1, 1] ∧
      (addEquation bottle 0 "bottle" ⟨[], [], []⟩ fillElement).issues =
        [.undefinedVariable ⟨"bottle", "inflow"⟩] := by
  have drafted : (Equation.draftEquation (bottle.lookup? 0) fillElement).1 =
      some (.ofExpr (Equation.readEquation (bottle.lookup? 0) fillElement).1) := by decide +kernel
  have added : addEquation bottle 0 "bottle" ⟨[], [], []⟩ fillElement =
      addEquation bottle 0 "bottle" ⟨[], [], []⟩ fillElement := rfl
  obtain ⟨⟨equation, equations, lists⟩, references, issues, -⟩ := addEquation_lists drafted added
  exact ⟨_, equation, drafted, equations, lists, references, issues⟩

end Gathered

end ComponentModel.Analysis
