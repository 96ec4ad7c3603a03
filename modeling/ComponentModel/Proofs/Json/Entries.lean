import Mathlib.Data.List.Nodup
import Mathlib.Data.String.Basic
import ComponentModel.Json.Value

/-!
# Entries sorted by key

Sorting the entries of an object leaves one entry for each key, and of several entries of one key
the last one counts.
-/

namespace ComponentModel.Json

variable {α : Type} {key : String} {value : α} {entries : List (String × α)}

/-! ## Distinct keys -/

theorem eraseDups_of_nodup {names : List String} (nodup : names.Nodup) :
    names.eraseDups = names := by
  induction names with
  | nil => rfl
  | cons name names ih =>
      obtain ⟨fresh, nodup⟩ := List.nodup_cons.mp nodup
      have kept : names.filter (fun other => !other == name) = names := by
        rw [List.filter_eq_self]
        intro other isOther
        have : other ≠ name := fun same => fresh (same ▸ isOther)
        simpa using this
      rw [List.eraseDups_cons, kept, ih nodup]

theorem length_eraseDups_le (names : List String) : names.eraseDups.length ≤ names.length := by
  match names with
  | [] => exact le_rfl
  | name :: names =>
      rw [List.eraseDups_cons, List.length_cons, List.length_cons, Nat.add_le_add_iff_right]
      have fewer := List.length_filter_le (fun other => !other == name) names
      exact (length_eraseDups_le _).trans fewer
termination_by names.length
decreasing_by exact Nat.lt_succ_of_le fewer

theorem length_eraseDups_eq_iff {names : List String} :
    names.eraseDups.length = names.length ↔ names.Nodup := by
  refine ⟨fun whole => ?_, fun nodup => by rw [eraseDups_of_nodup nodup]⟩
  induction names with
  | nil => exact List.nodup_nil
  | cons name names ih =>
      rw [List.eraseDups_cons, List.length_cons, List.length_cons,
        Nat.add_right_cancel_iff] at whole
      have kept : (names.filter fun other => !other == name).length = names.length :=
        le_antisymm (List.length_filter_le _ _) (whole ▸ length_eraseDups_le _)
      rw [List.length_filter_eq_length_iff] at kept
      rw [List.filter_eq_self.mpr kept] at whole
      refine List.nodup_cons.mpr ⟨fun member => ?_, ih whole⟩
      simpa using kept name member

theorem lookup_cons_eq (wanted other : String) (kept : α) (entries : List (String × α)) :
    List.lookup wanted ((other, kept) :: entries) =
      if wanted = other then some kept else entries.lookup wanted := by
  rw [List.lookup_cons]
  by_cases same : wanted = other
  · simp [same]
  · simp [beq_eq_false_iff_ne.mpr same, same]

theorem isSome_lookup_iff : (entries.lookup key).isSome ↔ key ∈ entries.map Prod.fst := by
  induction entries with
  | nil => simp
  | cons entry entries ih =>
      rw [lookup_cons_eq, List.map_cons, List.mem_cons, ← ih]
      by_cases same : key = entry.1 <;> simp [same]

theorem mem_of_lookup (found : entries.lookup key = some value) : (key, value) ∈ entries := by
  obtain ⟨front, behind, rfl, -⟩ := List.lookup_eq_some_iff.mp found
  simp

theorem lookup_of_mem (distinct : (entries.map Prod.fst).Nodup) (member : (key, value) ∈ entries) :
    entries.lookup key = some value := by
  obtain ⟨front, behind, rfl⟩ := List.append_of_mem member
  refine List.lookup_eq_some_iff.mpr ⟨front, behind, rfl, fun other isOther => ?_⟩
  rw [List.map_append, List.map_cons, List.nodup_middle, List.nodup_cons] at distinct
  rw [bne_iff_ne]
  rintro rfl
  exact distinct.1 (by simp [List.mem_map_of_mem isOther])

/-- Where no key repeats, it makes no difference where an entry stands. -/
theorem lookup_reverse (distinct : (entries.map Prod.fst).Nodup) :
    entries.reverse.lookup key = entries.lookup key := by
  refine Option.ext fun value => ⟨fun found => ?_, fun found => ?_⟩
  · exact lookup_of_mem distinct (List.mem_reverse.mp (mem_of_lookup found))
  · refine lookup_of_mem ?_ (List.mem_reverse.mpr (mem_of_lookup found))
    rwa [List.map_reverse, List.nodup_reverse]

/-! ## Sorting -/

/-- An inserted entry is found under its key, and everything else as before. -/
theorem lookup_insertSorted (wanted : String) :
    (insertSorted key value entries).lookup wanted =
      if wanted = key then some value else entries.lookup wanted := by
  induction entries with
  | nil => rw [insertSorted, lookup_cons_eq]
  | cons entry entries ih =>
      obtain ⟨other, kept⟩ := entry
      unfold insertSorted
      split
      next => rw [lookup_cons_eq]
      next =>
        split
        next repeated =>
          obtain rfl : key = other := by simpa using repeated
          rw [lookup_cons_eq, lookup_cons_eq]
          split <;> rfl
        next different =>
          have different : key ≠ other := by simpa using different
          rw [lookup_cons_eq, lookup_cons_eq, ih]
          by_cases isOther : wanted = other
          · simp [isOther, different.symm]
          · simp [isOther]

theorem mem_keys_insertSorted {wanted : String} :
    wanted ∈ (insertSorted key value entries).map Prod.fst ↔
      wanted = key ∨ wanted ∈ entries.map Prod.fst := by
  rw [← isSome_lookup_iff, ← isSome_lookup_iff, lookup_insertSorted]
  by_cases same : wanted = key <;> simp [same]

/-- Keys in strictly ascending order. -/
def SortedKeys (entries : List (String × α)) : Prop :=
  (entries.map Prod.fst).Pairwise (· < ·)

theorem SortedKeys.nodup (sorted : SortedKeys entries) : (entries.map Prod.fst).Nodup :=
  sorted.imp fun less => ne_of_lt less

theorem SortedKeys.insertSorted (sorted : SortedKeys entries) :
    SortedKeys (insertSorted key value entries) := by
  induction entries with
  | nil => simp [SortedKeys, Json.insertSorted]
  | cons entry entries ih =>
      obtain ⟨other, kept⟩ := entry
      obtain ⟨least, rest⟩ := List.pairwise_cons.mp sorted
      unfold Json.insertSorted
      split
      next less =>
        refine List.pairwise_cons.mpr ⟨?_, List.pairwise_cons.mpr ⟨least, rest⟩⟩
        intro wanted member
        rcases List.mem_cons.mp member with rfl | member
        · exact less
        · exact less.trans (least wanted member)
      next notLess =>
        split
        next repeated =>
          obtain rfl : key = other := by simpa using repeated
          exact List.pairwise_cons.mpr ⟨least, rest⟩
        next different =>
          have greater : other < key :=
            lt_of_le_of_ne (not_lt.mp notLess) (Ne.symm (by simpa using different))
          refine List.pairwise_cons.mpr ⟨fun wanted member => ?_, ih rest⟩
          rcases mem_keys_insertSorted.mp member with rfl | member
          · exact greater
          · exact least wanted member

theorem sortedKeys_sortEntries (entries : List (String × α)) :
    SortedKeys (sortEntries entries) := by
  suffices kept : ∀ sorted : List (String × α), SortedKeys sorted →
      SortedKeys (entries.foldl (fun sorted entry => insertSorted entry.1 entry.2 sorted) sorted) by
    exact kept [] List.Pairwise.nil
  induction entries with
  | nil => exact fun _ sorted => sorted
  | cons entry entries ih => exact fun _ sorted => ih _ sorted.insertSorted

theorem lookup_sortEntries (entries : List (String × α)) (wanted : String) :
    (sortEntries entries).lookup wanted = entries.reverse.lookup wanted := by
  suffices found : ∀ sorted : List (String × α), List.lookup wanted
      (entries.foldl (fun sorted entry => insertSorted entry.1 entry.2 sorted) sorted) =
        (entries.reverse.lookup wanted).or (sorted.lookup wanted) by
    simpa [sortEntries] using found []
  induction entries with
  | nil => exact fun _ => rfl
  | cons entry entries ih =>
      intro sorted
      rw [List.foldl_cons, ih, lookup_insertSorted, List.reverse_cons, List.lookup_append,
        Option.or_assoc, lookup_cons_eq]
      by_cases same : wanted = entry.1 <;> simp [same]

theorem Value.collapseEntries_eq (entries : List (String × Value)) :
    collapseEntries entries = entries.map fun entry => (entry.1, entry.2.collapse) := by
  induction entries with
  | nil => rfl
  | cons entry entries ih => rw [collapseEntries, ih, List.map_cons]

/-- No key repeats in an object that has been sorted. -/
theorem Value.nodup_of_collapse {written : Value} {entries : List (String × Value)}
    (collapsed : written.collapse = .object entries) : (entries.map Prod.fst).Nodup := by
  cases written with
  | object found =>
      obtain rfl : sortEntries (collapseEntries found) = entries := by
        simpa [collapse] using collapsed
      exact (sortedKeys_sortEntries _).nodup
  | _ => simp [collapse] at collapsed

end ComponentModel.Json
