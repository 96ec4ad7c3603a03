import ComponentModel.Analysis.Registry
import Mathlib.Data.List.Basic

/-!
# Records under change

What a registry holds after a record has been changed or a class has been met. The representatives
of the records tell which record belongs to a declaration, and no change touches them; a number
that has been found for a declaration therefore stays its number.
-/

namespace ComponentModel.Analysis

namespace Registry

variable {registry : Registry} {number other : Nat}

@[simp] theorem length_change (update : Record → Record) :
    (registry.change number update).length = registry.length := by
  simp [change]

theorem get_of_lt (bound : number < registry.length) :
    registry.get number = registry[number] := by
  simp [get, List.getD_eq_getElem?_getD, bound]

theorem get_of_length_le (bound : registry.length ≤ number) :
    registry.get number = ⟨0, 0, 0, .unknown, none, none⟩ := by
  simp [get, List.getD_eq_getElem?_getD, bound]

theorem get_change_self (update : Record → Record) (bound : number < registry.length) :
    (registry.change number update).get number = update (registry.get number) := by
  simp [get, change, List.getD_eq_getElem?_getD, bound]

theorem get_change_of_ne (update : Record → Record) (different : number ≠ other) :
    (registry.change number update).get other = registry.get other := by
  simp [get, change, List.getD_eq_getElem?_getD, different]

/-- A change that keeps a part of a record keeps that part of all records. -/
theorem project_change {α : Type} (project : Record → α) {update : Record → Record}
    (kept : ∀ record, project (update record) = project record) :
    project ((registry.change number update).get other) = project (registry.get other) := by
  by_cases equal : number = other
  · subst equal
    by_cases inside : number < registry.length
    · rw [get_change_self update inside, kept]
    · have outside : registry.length ≤ number := Nat.le_of_not_lt inside
      rw [get_of_length_le outside, get_of_length_le (by simpa using outside)]
  · rw [get_change_of_ne update equal]

/-- What a change keeps of every record holds of all records as before. -/
theorem get_change_of_kept (property : Record → Prop) {update : Record → Record}
    (kept : ∀ record, property record → property (update record))
    (holds : property (registry.get other)) :
    property ((registry.change number update).get other) := by
  by_cases equal : number = other
  · subst equal
    by_cases inside : number < registry.length
    · rw [get_change_self update inside]
      exact kept _ holds
    · have outside : registry.length ≤ number := Nat.le_of_not_lt inside
      rw [get_of_length_le (by simpa using outside)]
      rwa [get_of_length_le outside] at holds
  · rwa [get_change_of_ne update equal]

/-- A change only depends on what it makes of the record that is there. -/
theorem change_congr {update replacement : Record → Record}
    (same : update (registry.get number) = replacement (registry.get number)) :
    registry.change number update = registry.change number replacement := by
  apply List.ext_getElem
  · simp [change]
  · intro position inChanged inReplaced
    by_cases equal : number = position
    · subst equal
      rw [length_change] at inChanged
      rw [get_of_lt inChanged] at same
      simpa [change] using same
    · simp [change, equal]

theorem change_change (first second : Record → Record) :
    (registry.change number first).change number second =
      registry.change number fun record => second (first record) := by
  simp only [change, List.modify_modify_eq]
  rfl

/-- Only a record that exists has a place. -/
theorem lt_length_of_place (placed : (registry.get number).place.isSome) :
    number < registry.length := by
  by_contra outside
  rw [get_of_length_le (Nat.le_of_not_lt outside)] at placed
  simp at placed

theorem get_mem (bound : number < registry.length) : registry.get number ∈ registry := by
  rw [get_of_lt bound]
  exact List.getElem_mem bound

/-- A property of all numbered records is one of all records. -/
theorem forall_mem_iff (property : Record → Prop) :
    (∀ record ∈ registry, property record) ↔
      ∀ number < registry.length, property (registry.get number) := by
  constructor
  · intro every number bound
    exact every _ (get_mem bound)
  · intro every record membership
    obtain ⟨number, bound, rfl⟩ := List.getElem_of_mem membership
    rw [← get_of_lt bound]
    exact every number bound

/-- A change keeps what holds of all records, if it keeps it of the record that it changes. -/
theorem forall_mem_change {property : Record → Prop} {update : Record → Record}
    (every : ∀ record ∈ registry, property record)
    (kept : ∀ record, property record → property (update record)) :
    ∀ record ∈ registry.change number update, property record := by
  rw [forall_mem_iff] at every ⊢
  intro other bound
  rw [length_change] at bound
  by_cases same : number = other
  · subst same
    rw [get_change_self update bound]
    exact kept _ (every number bound)
  · rw [get_change_of_ne update same]
    exact every other bound

/-! ## Finding a record -/

/-- Finding a record looks at representatives only. -/
theorem find?_eq_findIdx? (index : Index) (declaration : Nat) :
    registry.find? index declaration =
      (registry.map Record.representative).findIdx? (· == index.classOf declaration) := by
  rw [List.findIdx?_map]
  rfl

theorem find?_congr {registry changed : Registry} (index : Index) (declaration : Nat)
    (same : changed.map Record.representative = registry.map Record.representative) :
    changed.find? index declaration = registry.find? index declaration := by
  rw [find?_eq_findIdx?, find?_eq_findIdx?, same]

theorem map_representative_change (update : Record → Record)
    (kept : (update (registry.get number)).representative =
      (registry.get number).representative) :
    (registry.change number update).map Record.representative =
      registry.map Record.representative := by
  apply List.ext_getElem
  · simp [change]
  · intro position inChanged inside
    simp only [List.length_map, length_change] at inChanged inside
    by_cases same : number = position
    · subst same
      simpa [change, get_of_lt inside] using kept
    · simp [change, same]

/-- Equivalent declarations have the same record. -/
theorem find?_of_equivalent {index : Index} {one two : Nat} (same : index.equivalent one two) :
    registry.find? index one = registry.find? index two := by
  unfold find?
  rw [show index.classOf one = index.classOf two from eq_of_beq same]

theorem find?_change (index : Index) (declaration : Nat) (update : Record → Record)
    (kept : (update (registry.get number)).representative =
      (registry.get number).representative) :
    (registry.change number update).find? index declaration =
      registry.find? index declaration :=
  find?_congr index declaration (map_representative_change update kept)

theorem lt_of_find? {index : Index} {declaration : Nat}
    (found : registry.find? index declaration = some number) : number < registry.length := by
  obtain ⟨bound, -⟩ := List.findIdx?_eq_some_iff_getElem.mp found
  exact bound

/-! ## Meeting a class -/

/-- The record of a class once the class has been met. -/
theorem find?_resolve (index : Index) (declaration : Nat) :
    (registry.resolve index declaration).2.find? index declaration =
      some (registry.resolve index declaration).1 := by
  unfold resolve
  split
  case h_1 number found => exact found
  case h_2 missing =>
    simp only [find?] at missing ⊢
    rw [List.findIdx?_append, missing]
    simp [List.findIdx?_cons, Record.new, Record.track]

/-- A class that is met later does not change what is found for an earlier one. -/
theorem find?_resolve_of_some (index : Index) {declaration met : Nat}
    (found : registry.find? index declaration = some number) :
    (registry.resolve index met).2.find? index declaration = some number := by
  unfold resolve
  split
  case h_1 => exact found
  case h_2 =>
    simp only [find?] at found ⊢
    rw [List.findIdx?_append, found]
    rfl

/-- A record of a met class is an earlier one or new. -/
theorem mem_resolve (index : Index) {met : Nat} {record : Record}
    (membership : record ∈ (registry.resolve index met).2) :
    record ∈ registry ∨ record = Record.new index met := by
  unfold resolve at membership
  split at membership
  · exact Or.inl membership
  · simpa using membership

end Registry

end ComponentModel.Analysis
