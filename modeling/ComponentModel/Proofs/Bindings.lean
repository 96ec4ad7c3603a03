import ComponentModel.Proofs.Solution

/-!
# What declarations stand for

Every declaration that an equation mentions stands for a variable of the analysed model: the one
that the record of its class has become. Two records have become two different variables.
-/

namespace ComponentModel.Analysis

open Equation (Role)

namespace Stage

/-- The record of the class of a declaration, and the variable that it has become. -/
structure BoundTo (model : Model) (declaration record : Nat) (found : AnalysedVariable) :
    Prop where
  recorded : (final model).registry.find? (index model) declaration = some record
  entry : (layout model).byRecord.lookup record = some found
  binding : (analyse model).binding? declaration = some (found.type, found.place)

variable {model : Model} {declaration record : Nat} {found : AnalysedVariable}

theorem laidOut (model : Model) : VariableLayout.LaidOut (index model) (final model).registry
    (VariableLayout.order (final model).registry) (layout model) :=
  VariableLayout.laidOut_ofRegistry (index model) (final model).registry

theorem isEntry (entry : (layout model).byRecord.lookup record = some found) :
    VariableLayout.IsEntry (index model) (final model).registry (layout model) record found :=
  ((laidOut model).entry record found entry).2

/-- A record other than that of the variable of integration is the only one of its type and
place. -/
theorem record_eq {other : Nat} {foundOther : AnalysedVariable}
    (entry : (layout model).byRecord.lookup record = some found)
    (entryOther : (layout model).byRecord.lookup other = some foundOther)
    (inArray : found.type ≠ .integrationVariable)
    (same : (found.type, found.place) = (foundOther.type, foundOther.place)) :
    record = other := by
  obtain ⟨sameType, samePlace⟩ := Prod.mk.inj same
  exact (laidOut model).injective record other found foundOther entry entryOther inArray sameType
    samePlace

theorem binding?_analyse (valid : (analyse model).type.isValid)
    (inside : declaration < (index model).declarations.length) :
    (analyse model).binding? declaration =
      (layout model).binding? (index model) (final model).registry declaration := by
  obtain ⟨-, -, issues, equal⟩ := analyse_eq valid
  rw [equal, AnalysedModel.binding?, solved]
  simp [List.getElem?_range inside]
  rfl

/-- The declarations that an equation mentions are declarations of the model. -/
theorem mentioned_lt {source : OrderedEquation} (membership : source ∈ built model) {role : Role}
    (mentioned : (role, declaration) ∈ source.expr.mentions .plain) :
    declaration < (index model).declarations.length := by
  obtain ⟨name, lookup⟩ :=
    (Gathered.sound_ofIndex (index model)).declared source membership _ mentioned
  exact lookup?_lt lookup

/-- A class with a record is bound to the variable that the record has become. -/
theorem boundTo (valid : (analyse model).type.isValid)
    (inside : declaration < (index model).declarations.length)
    (recorded : (final model).registry.find? (index model) declaration = some record)
    (entry : (layout model).byRecord.lookup record = some found) :
    BoundTo model declaration record found where
  recorded := recorded
  entry := entry
  binding := by
    rw [binding?_analyse valid inside]
    simp [VariableLayout.binding?, recorded, entry]

/-- Every mention in an equation of a model that can be solved is bound. -/
theorem exists_boundTo (valid : (analyse model).type.isValid) {source : OrderedEquation}
    (membership : source ∈ built model) {role : Role}
    (mentioned : (role, declaration) ∈ source.expr.mentions .plain) :
    ∃ record found, BoundTo model declaration record found := by
  obtain ⟨record, recorded⟩ :=
    Option.isSome_iff_exists.mp ((refers model membership).found _ mentioned)
  have known := Registry.lt_of_find? recorded
  obtain ⟨found, entry⟩ := exists_entry valid known
  exact ⟨record, found, boundTo valid (mentioned_lt membership mentioned) recorded entry⟩

/-- A mention is bound to a variable other than that of integration exactly if it has its record. -/
theorem BoundTo.binding_eq_iff {target : AnalysedVariable} {other : Nat}
    (bound : BoundTo model declaration record found)
    (entry : (layout model).byRecord.lookup other = some target)
    (inArray : target.type ≠ .integrationVariable) :
    (analyse model).binding? declaration = some (target.type, target.place) ↔
      record = other := by
  rw [bound.binding, Option.some.injEq]
  constructor
  · intro same
    exact (record_eq entry bound.entry inArray same.symm).symm
  · rintro rfl
    obtain rfl := Option.some.inj (bound.entry.symm.trans entry)
    rfl

/-- The value of a class is an item of an equation exactly if a declaration of the class is
mentioned. -/
theorem value_mem_items {source : OrderedEquation} (membership : source ∈ built model) :
    .value record ∈ source.items ↔
      ∃ declaration, (.plain, declaration) ∈ source.expr.mentions .plain ∧
        (final model).registry.find? (index model) declaration = some record := by
  rw [OrderedEquation.value_mem_items]
  exact (refers model membership).plain record

theorem rate_mem_items {source : OrderedEquation} (membership : source ∈ built model) :
    .rate record ∈ source.items ↔
      ∃ declaration, (.differentiated, declaration) ∈ source.expr.mentions .plain ∧
        (final model).registry.find? (index model) declaration = some record := by
  rw [OrderedEquation.rate_mem_items]
  exact (refers model membership).differentiated record

end Stage

end ComponentModel.Analysis
