import ComponentModel.Analysis.Gathering
import ComponentModel.Proofs.Mentions
import ComponentModel.Proofs.Records
import Mathlib.Data.List.Nodup

/-!
# What has been gathered

Gathering makes a record for every class that an equation mentions and lists the records of the
plain and of the differentiated mentions, each of them once. Nothing is known about the records
but which of them are initialised.
-/

namespace ComponentModel.Analysis

open Equation (Mention Role)

/-- A record of a class that no derivative and no equation has been looked at for. -/
structure Record.IsFresh (record : Record) : Prop where
  kind : record.kind = .unknown ∨ record.kind = .constant
  place : record.place = none
  equation : record.equation = none

theorem Record.isFresh_new (index : Index) (declaration : Nat) :
    (Record.new index declaration).IsFresh where
  kind := by
    unfold Record.new Record.track
    split
    · exact Or.inr rfl
    · exact Or.inl rfl
  place := rfl
  equation := rfl

theorem Record.IsFresh.track {record : Record} (fresh : record.IsFresh) (declaration : Nat) :
    (record.track declaration true).IsFresh where
  kind := Or.inr rfl
  place := fresh.place
  equation := fresh.equation

/-- Everything that is found in a registry is found in another one. -/
def Registry.Within (index : Index) (registry larger : Registry) : Prop :=
  ∀ declaration number, registry.find? index declaration = some number →
    larger.find? index declaration = some number

/-- The references of mentions: their classes have records, and those of plain and differentiated
mentions are listed once each. -/
structure Refers (index : Index) (registry : Registry) (mentions : List (Role × Nat))
    (references : References) : Prop where
  found : ∀ mention ∈ mentions, (registry.find? index mention.2).isSome
  plain : ∀ number, number ∈ references.plain ↔
    ∃ declaration, (.plain, declaration) ∈ mentions ∧
      registry.find? index declaration = some number
  differentiated : ∀ number, number ∈ references.differentiated ↔
    ∃ declaration, (.differentiated, declaration) ∈ mentions ∧
      registry.find? index declaration = some number
  plain_nodup : references.plain.Nodup
  differentiated_nodup : references.differentiated.Nodup

namespace Refers

variable {index : Index} {registry larger : Registry} {mentions : List (Role × Nat)}
  {references : References}

theorem empty : Refers index registry [] ⟨[], []⟩ where
  found := by simp
  plain := by simp
  differentiated := by simp
  plain_nodup := List.nodup_nil
  differentiated_nodup := List.nodup_nil

/-- What is found for a mention does not depend on records that are made later. -/
theorem found_iff (refers : Refers index registry mentions references)
    (within : registry.Within index larger) {mention : Role × Nat}
    (membership : mention ∈ mentions) (number : Nat) :
    larger.find? index mention.2 = some number ↔
      registry.find? index mention.2 = some number := by
  constructor
  · intro foundLater
    obtain ⟨earlier, found⟩ := Option.isSome_iff_exists.mp (refers.found mention membership)
    rw [within _ _ found, Option.some.injEq] at foundLater
    rw [found, foundLater]
  · exact within _ _

theorem mono (refers : Refers index registry mentions references)
    (within : registry.Within index larger) : Refers index larger mentions references where
  found := by
    intro mention membership
    obtain ⟨number, found⟩ := Option.isSome_iff_exists.mp (refers.found mention membership)
    simp [within _ _ found]
  plain := by
    intro number
    rw [refers.plain number]
    apply exists_congr
    intro declaration
    exact and_congr_right fun membership => (refers.found_iff within membership number).symm
  differentiated := by
    intro number
    rw [refers.differentiated number]
    apply exists_congr
    intro declaration
    exact and_congr_right fun membership => (refers.found_iff within membership number).symm
  plain_nodup := refers.plain_nodup
  differentiated_nodup := refers.differentiated_nodup

theorem mem_addNew {number other : Nat} {numbers : List Nat} :
    other ∈ References.addNew number numbers ↔ other ∈ numbers ∨ other = number := by
  unfold References.addNew
  split
  case isTrue known =>
    constructor
    · exact Or.inl
    · rintro (listed | rfl)
      · exact listed
      · simpa using known
  case isFalse => simp

theorem nodup_addNew {number : Nat} {numbers : List Nat} (nodup : numbers.Nodup) :
    (References.addNew number numbers).Nodup := by
  unfold References.addNew
  split
  case isTrue => exact nodup
  case isFalse unknown =>
    refine nodup.append (List.nodup_singleton number) ?_
    simpa using unknown

/-- Noting one more mention. -/
theorem note (refers : Refers index registry mentions references) (role : Role)
    {declaration number : Nat} (found : registry.find? index declaration = some number) :
    Refers index registry (mentions ++ [(role, declaration)]) (references.note role number) where
  found := by
    intro mention membership
    rcases List.mem_append.mp membership with earlier | new
    · exact refers.found mention earlier
    · rw [List.mem_singleton.mp new, found]
      rfl
  plain := by
    intro other
    have before := refers.plain other
    cases role <;> simp [References.note, mem_addNew, before, or_and_right, exists_or, found,
      eq_comm]
  differentiated := by
    intro other
    have before := refers.differentiated other
    cases role <;> simp [References.note, mem_addNew, before, or_and_right, exists_or, found,
      eq_comm]
  plain_nodup := by
    cases role with
    | plain => exact nodup_addNew refers.plain_nodup
    | differentiated => exact refers.plain_nodup
    | bound => exact refers.plain_nodup
  differentiated_nodup := by
    cases role with
    | plain => exact refers.differentiated_nodup
    | differentiated => exact nodup_addNew refers.differentiated_nodup
    | bound => exact refers.differentiated_nodup

end Refers

/-! ## Every step keeps what has been gathered -/

namespace Registry

variable {index : Index} {registry : Registry}

theorem within_resolve (index : Index) (registry : Registry) (declaration : Nat) :
    registry.Within index (registry.resolve index declaration).2 :=
  fun _ _ found => find?_resolve_of_some index found

theorem isFresh_resolve {declaration : Nat} (fresh : ∀ record ∈ registry, record.IsFresh) :
    ∀ record ∈ (registry.resolve index declaration).2, record.IsFresh := by
  intro record membership
  rcases mem_resolve index membership with earlier | rfl
  · exact fresh record earlier
  · exact Record.isFresh_new index declaration

end Registry

namespace Gathered

/-- What has been gathered so far: fresh records, and equations with all their references. -/
structure Sound (index : Index) (gathered : Gathered) : Prop where
  fresh : ∀ record ∈ gathered.registry, record.IsFresh
  untouched : ∀ equation ∈ gathered.equations,
    equation = .new equation.expr equation.component equation.plain equation.differentiated
  refers : ∀ equation ∈ gathered.equations,
    Refers index gathered.registry (equation.expr.mentions .plain)
      ⟨equation.plain, equation.differentiated⟩
  declared : ∀ equation ∈ gathered.equations, ∀ mention ∈ equation.expr.mentions .plain,
    ∃ name, index.lookup? equation.component name = some mention.2

variable {index : Index} {gathered : Gathered}

/-- More records do no harm to what has been gathered. -/
theorem Sound.withRegistry (sound : Sound index gathered) {registry : Registry}
    (fresh : ∀ record ∈ registry, record.IsFresh)
    (within : gathered.registry.Within index registry) :
    Sound index { gathered with registry } where
  fresh := fresh
  untouched := sound.untouched
  refers := fun equation membership => (sound.refers equation membership).mono within
  declared := sound.declared

theorem Sound.report (sound : Sound index gathered) (issue : Issue) :
    Sound index (gathered.report issue) :=
  ⟨sound.fresh, sound.untouched, sound.refers, sound.declared⟩

/-- The mentions of an equation make records and references. -/
theorem Sound.mentions (component : String) (mentions : List Mention)
    {references : References} {before : List (Role × Nat)} (sound : Sound index gathered)
    (refers : Refers index gathered.registry before references) :
    Sound index (mentions.foldl (mention index component) (gathered, references)).1 ∧
      Refers index (mentions.foldl (mention index component) (gathered, references)).1.registry
        (before ++ mentions.filterMap Mention.declared?)
        (mentions.foldl (mention index component) (gathered, references)).2 := by
  induction mentions generalizing gathered references before with
  | nil => simpa using ⟨sound, refers⟩
  | cons head rest ih =>
      cases head with
      | undeclared name => exact ih (sound.report _) refers
      | declared role declaration =>
          have within := Registry.within_resolve index gathered.registry declaration
          have found := gathered.registry.find?_resolve index declaration
          have step := ih (sound.withRegistry (Registry.isFresh_resolve sound.fresh) within)
            ((refers.mono within).note role found)
          simpa [mention, List.filterMap_cons, Mention.declared?, List.append_assoc] using step

theorem sound_addEquation (component : Nat) (name : String) (element : Markup.Element)
    (sound : Sound index gathered) :
    Sound index (addEquation index component name gathered element) := by
  have agrees := Equation.agrees_readElement (index.lookup? component) true .plain element
  obtain ⟨soundAfter, refers⟩ := sound.mentions name
    (Equation.readEquation (index.lookup? component) element).2 .empty
  rw [Equation.readEquation, agrees.mentions, List.nil_append] at refers
  unfold addEquation
  simp only
  split
  · refine ⟨soundAfter.fresh, ?_, ?_, ?_⟩
    · intro equation membership
      rcases List.mem_append.mp membership with earlier | new
      · exact soundAfter.untouched equation earlier
      · rw [List.mem_singleton.mp new]
        rfl
    · intro equation membership
      rcases List.mem_append.mp membership with earlier | new
      · exact soundAfter.refers equation earlier
      · rw [List.mem_singleton.mp new]
        exact refers
    · intro equation membership
      rcases List.mem_append.mp membership with earlier | new
      · exact soundAfter.declared equation earlier
      · rw [List.mem_singleton.mp new]
        exact agrees.declared
  · exact soundAfter

theorem sound_addMath (number : Nat) (component : Component) (sound : Sound index gathered) :
    Sound index (addMath index number component gathered) := by
  unfold addMath
  split
  · exact sound
  · split
    · exact sound
    · next roots _ =>
        generalize roots.flatMap Markup.Element.children = elements
        induction elements generalizing gathered with
        | nil => exact sound
        | cons head rest ih => exact ih (sound_addEquation number component.name head sound)

theorem sound_addDeclaration (declaration : Nat) (sound : Sound index gathered) :
    Sound index (addDeclaration index gathered declaration) := by
  have met := sound.withRegistry (Registry.isFresh_resolve sound.fresh)
    (Registry.within_resolve index gathered.registry declaration)
  unfold addDeclaration
  simp only
  split
  · refine met.withRegistry ?_ ?_
    · exact Registry.forall_mem_change met.fresh fun record fresh => fresh.track declaration
    · intro other number found
      rwa [Registry.find?_change]
      rfl
  · split
    · exact met.report _
    · exact met

theorem sound_visit (entry : Component × Nat) (sound : Sound index gathered) :
    Sound index (visit index gathered entry) := by
  have start := sound_addMath entry.2 entry.1 sound
  unfold visit
  generalize index.variablesOf entry.2 = declarations
  generalize addMath index entry.2 entry.1 gathered = state at start
  induction declarations generalizing state with
  | nil => exact start
  | cons head rest ih => exact ih _ (sound_addDeclaration head start)

/-- Whatever the numbered declarations are, what is gathered from them is sound. -/
theorem sound_ofIndex (index : Index) : Sound index (ofIndex index) := by
  have start : Sound index ⟨[], [], []⟩ := ⟨by simp, by simp, by simp, by simp⟩
  unfold ofIndex
  generalize index.components.zipIdx = entries
  generalize (⟨[], [], []⟩ : Gathered) = state at start
  induction entries generalizing state with
  | nil => exact start
  | cons head rest ih => exact ih _ (sound_visit head start)

end Gathered

end ComponentModel.Analysis
