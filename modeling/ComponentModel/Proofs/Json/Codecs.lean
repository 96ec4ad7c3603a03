import ComponentModel.Proofs.Json.Entries
import ComponentModel.Proofs.Json.Reading

/-!
# Values that are read again

A reader and a writer of values fit together if whatever has been read is read again once it is
written, and is written no deeper than it was. They fit together on records if they do on the fields
of these.
-/

namespace ComponentModel.Json

/-! ## Values inside records -/

/-- A value nests at most so deep, and its whole numbers have thirty-two bits. -/
structure Value.Fits (bound : Nat) (value : Value) : Prop where
  depth : value.depth ≤ bound
  whole : ∀ {integer : Int}, .integer integer ∈ value.numbers → Decimal.fitsThirtyTwoBits integer

theorem Value.Fits.mono {bound wider : Nat} {value : Value} (fits : value.Fits bound)
    (le : bound ≤ wider) : value.Fits wider :=
  ⟨fits.depth.trans le, fits.whole⟩

theorem Value.mem_itemNumbers {items : List Value} {number : Number} :
    number ∈ itemNumbers items ↔ ∃ item ∈ items, number ∈ item.numbers := by
  induction items with
  | nil => simp [itemNumbers]
  | cons item items ih => rw [itemNumbers, List.mem_append, ih, List.exists_mem_cons_iff]

theorem Value.mem_entryNumbers {entries : List (String × Value)} {number : Number} :
    number ∈ entryNumbers entries ↔ ∃ entry ∈ entries, number ∈ entry.2.numbers := by
  induction entries with
  | nil => simp [entryNumbers]
  | cons entry entries ih => rw [entryNumbers, List.mem_append, ih, List.exists_mem_cons_iff]

theorem Value.Fits.array {bound : Nat} {items : List Value}
    (each : ∀ item ∈ items, item.Fits bound) : (Value.array items).Fits (bound + 1) where
  depth := by
    rw [Value.depth]
    exact Nat.succ_le_succ (depthOfItems_le_iff.mpr fun item isItem => (each item isItem).depth)
  whole member := by
    rw [numbers, mem_itemNumbers] at member
    obtain ⟨item, isItem, member⟩ := member
    exact (each item isItem).whole member

theorem Value.Fits.object {bound : Nat} {entries : List (String × Value)}
    (each : ∀ entry ∈ entries, entry.2.Fits bound) : (Value.object entries).Fits (bound + 1) where
  depth := by
    rw [Value.depth]
    exact Nat.succ_le_succ
      (depthOfEntries_le_iff.mpr fun entry isEntry => (each entry isEntry).depth)
  whole member := by
    rw [numbers, mem_entryNumbers] at member
    obtain ⟨entry, isEntry, member⟩ := member
    exact (each entry isEntry).whole member

/-! ## Written records -/

/-- A field of a written record: its name, and its value if it is there. -/
abbrev Slot := String × Option Value

/-- The entries of the fields that are there. -/
def entriesOf (slots : List Slot) : List (String × Value) :=
  slots.flatMap fun slot => slot.2.toList.map fun value => (slot.1, value)

/-- The value of a list, unless it is empty. -/
def listed {α : Type} (encode : α → Value) : List α → Option Value
  | [] => none
  | items => some (.array (items.map encode))

theorem entriesOf_cons (slot : Slot) (slots : List Slot) :
    entriesOf (slot :: slots) = (slot.2.toList.map fun value => (slot.1, value)) ++ entriesOf slots :=
  List.flatMap_cons

theorem mem_entriesOf {slots : List Slot} {entry : String × Value} :
    entry ∈ entriesOf slots ↔ ∃ slot ∈ slots, ∃ value ∈ slot.2, (slot.1, value) = entry := by
  simp [entriesOf]

theorem keys_entriesOf_sublist (slots : List Slot) :
    ((entriesOf slots).map Prod.fst).Sublist (slots.map Prod.fst) := by
  induction slots with
  | nil => exact .refl _
  | cons slot slots ih =>
      obtain ⟨name, value⟩ := slot
      rw [entriesOf_cons]
      cases value with
      | none => exact ih.cons _
      | some value => exact ih.cons_cons _

/-- The fields of a written record are found by their names. -/
theorem lookup_entriesOf {slots : List Slot} (nodup : (slots.map Prod.fst).Nodup) :
    ∀ slot ∈ slots, (entriesOf slots).lookup slot.1 = slot.2 := by
  induction slots with
  | nil => simp
  | cons slot slots ih =>
      obtain ⟨name, value⟩ := slot
      obtain ⟨fresh, distinct⟩ := List.nodup_cons.mp nodup
      have later : (entriesOf slots).lookup name = none := by
        rw [← Option.not_isSome_iff_eq_none, isSome_lookup_iff]
        exact fun isKey => fresh ((keys_entriesOf_sublist slots).subset isKey)
      rw [entriesOf_cons, List.forall_mem_cons]
      refine ⟨?_, fun other isOther => ?_⟩
      · cases value with
        | none => exact later
        | some value => exact List.lookup_cons_self
      · have different : other.1 ≠ name := fun same =>
          fresh (List.mem_map.mpr ⟨other, isOther, same⟩)
        cases value with
        | none => exact ih distinct other isOther
        | some value =>
            rw [← ih distinct other isOther]
            exact (lookup_cons_eq _ _ _ _).trans (if_neg different)

namespace Fields

/-- A written record has the fields that it may have. -/
theorem ofValue?_entriesOf {slots : List Slot} (nodup : (slots.map Prod.fst).Nodup) :
    ofValue? (slots.map Prod.fst) (.object (entriesOf slots)) = some (.named (entriesOf slots)) := by
  have sublist := keys_entriesOf_sublist slots
  have known : ((entriesOf slots).map Prod.fst).all (slots.map Prod.fst).contains = true := by
    rw [List.all_eq_true]
    exact fun key isKey => List.contains_iff_mem.mpr (sublist.subset isKey)
  simp only [ofValue?, known, eraseDups_of_nodup (sublist.nodup nodup), beq_self_eq_true,
    Bool.and_self, if_true]

/-- The values of fields nest at most so deep. -/
def Bounded (bound : Nat) (fields : Fields) : Prop :=
  ∀ {place : Nat} {name : String} {value : Value},
    fields.get? place name = some value → value.depth ≤ bound

/-- The fields of a record nest less deep than the record. -/
theorem bounded_of_ofValue? {names : List String} {value : Value} {fields : Fields}
    (read : ofValue? names value = some fields) :
    ∃ bound, value.depth = bound + 1 ∧ fields.Bounded bound := by
  unfold ofValue? at read
  split at read
  case h_1 entries =>
    dsimp only at read
    split at read
    case isTrue =>
      obtain rfl := Option.some.inj read
      refine ⟨Value.depthOfEntries entries, by rw [Value.depth], fun {_ name value} found => ?_⟩
      obtain ⟨before, after, split, -⟩ := List.lookup_eq_some_iff.mp found
      exact Value.depthOfEntries_le_iff.mp le_rfl (name, value)
        (split ▸ List.mem_append_right _ List.mem_cons_self)
    case isFalse => cases read
  case h_2 items =>
    split at read
    case isTrue =>
      obtain rfl := Option.some.inj read
      refine ⟨Value.depthOfItems items, by rw [Value.depth], fun found => ?_⟩
      exact Value.depthOfItems_le_iff.mp le_rfl _ (List.mem_of_getElem? found)
    case isFalse => cases read
  case h_3 => cases read

end Fields

/-! ## Readers and writers -/

/-- Whatever is read from a value is read again once it is written, and is written no deeper than
it was. -/
structure IsCodec {α : Type} (decode : Value → Option α) (encode : α → Value) : Prop where
  again {value : Value} {read : α} : decode value = some read → decode (encode read) = some read
  fits {value : Value} {read : α} : decode value = some read → (encode read).Fits value.depth
  present (read : α) : encode read ≠ .null

/-- What a field has been read as is read again from a record that has the field as written. -/
structure RereadsField {α : Type} (depth : Nat) (name : String) (read : Fields → Option α)
    (written : Option Value) (result : α) : Prop where
  fits : ∀ value ∈ written, value.Fits depth
  again : ∀ entries, entries.lookup name = written → read (.named entries) = some result

/-- What fields have been read as is read again from a record that has all of them as written. -/
structure RereadsFields {α : Type} (depth : Nat) (slots : List Slot) (read : Fields → Option α)
    (result : α) : Prop where
  fits : ∀ slot ∈ slots, ∀ value ∈ slot.2, value.Fits depth
  again : ∀ entries, (∀ slot ∈ slots, entries.lookup slot.1 = slot.2) →
    read (.named entries) = some result

namespace RereadsFields

variable {α β : Type} {depth : Nat}

theorem pure (result : α) : RereadsFields depth [] (fun _ => some result) result :=
  ⟨by simp, fun _ _ => rfl⟩

/-- One more field is read in front of the others. -/
theorem bind {name : String} {written : Option Value} {slots : List Slot}
    {first : Fields → Option α} {rest : α → Fields → Option β} {found : α} {result : β}
    (field : RereadsField depth name first written found)
    (fields : RereadsFields depth slots (rest found) result) :
    RereadsFields depth ((name, written) :: slots)
      (fun fields => (first fields).bind fun found => rest found fields) result where
  fits := List.forall_mem_cons.mpr ⟨field.fits, fields.fits⟩
  again entries lookups := by
    obtain ⟨here, later⟩ := List.forall_mem_cons.mp lookups
    rw [field.again entries here, Option.bind_some]
    exact fields.again entries later

end RereadsFields

/-- The items of a list nest less deep than the list. -/
theorem listOf_congr {α : Type} {value : Value} {decode other : Value → Option α}
    (same : ∀ {item : Value}, item.depth < value.depth → decode item = other item) :
    listOf decode value = listOf other value := by
  cases value with
  | array items =>
      have each : ∀ item ∈ items, decode item = other item := fun item isItem => by
        have := Value.depthOfItems_le_iff.mp le_rfl item isItem
        exact same (by rw [Value.depth]; omega)
      rw [listOf, listOf]
      clear same
      induction items with
      | nil => rfl
      | cons item items ih =>
          obtain ⟨here, later⟩ := List.forall_mem_cons.mp each
          rw [List.mapM_cons, List.mapM_cons, here, ih later]
  | _ => rfl

namespace IsCodec

variable {α : Type} {depth place : Nat} {name : String} {fields : Fields}
  {decode : Value → Option α} {encode : α → Value}

theorem required (codec : IsCodec decode encode) (bounded : fields.Bounded depth) {read : α}
    (found : fields.required place name decode = some read) :
    RereadsField depth name (·.required place name decode) (some (encode read)) read := by
  obtain ⟨value, got, decoded⟩ := Option.bind_eq_some_iff.mp found
  refine ⟨fun _ same => Option.some.inj same ▸ (codec.fits decoded).mono (bounded got),
    fun entries written => ?_⟩
  rw [Fields.required, Fields.get?, written]
  exact codec.again decoded

theorem optional (codec : IsCodec decode encode) (bounded : fields.Bounded depth)
    {read : Option α} (found : fields.optional place name decode = some read) :
    RereadsField depth name (·.optional place name decode) (read.map encode) read := by
  cases read with
  | none => exact ⟨by simp, fun entries written => Fields.optional.eq_1 _ _ _ entries written⟩
  | some read =>
      obtain ⟨value, got, decoded⟩ : ∃ value, fields.get? place name = some value ∧
          decode value = some read := by
        unfold Fields.optional at found
        split at found
        case h_1 | h_2 | h_3 => cases found
        case h_4 value _ got =>
          obtain ⟨_, decoded, same⟩ := Option.map_eq_some_iff.mp found
          exact ⟨value, got, decoded.trans same⟩
      refine ⟨fun _ same => Option.some.inj same ▸ (codec.fits decoded).mono (bounded got),
        fun entries written => ?_⟩
      rw [Fields.optional.eq_4 place name decode (.named entries) (encode read)
        (codec.present read) written, codec.again decoded, Option.map_some]

/-- Items are read one by one. -/
theorem mapM_eq_some_iff {items : List Value} {reads : List α} :
    items.mapM decode = some reads ↔
      List.Forall₂ (fun item read => decode item = some read) items reads := by
  induction items generalizing reads with
  | nil => simp [eq_comm]
  | cons item items ih =>
      rw [List.mapM_cons, List.forall₂_cons_left_iff]
      simp only [Option.bind_eq_bind, Option.pure_def, Option.bind_eq_some_iff, ih,
        Option.some.injEq]
      constructor
      · rintro ⟨read, here, rest, later, rfl⟩
        exact ⟨read, rest, here, later, rfl⟩
      · rintro ⟨read, rest, here, later, rfl⟩
        exact ⟨read, here, rest, later, rfl⟩

theorem exists_of_mapM {items : List Value} {reads : List α} (all : items.mapM decode = some reads) :
    ∀ read ∈ reads, ∃ item ∈ items, decode item = some read := by
  intro read isRead
  obtain ⟨index, within, rfl⟩ := List.mem_iff_getElem.mp isRead
  have each := mapM_eq_some_iff.mp all
  have inItems : index < items.length := each.length_eq ▸ within
  exact ⟨items[index], List.getElem_mem inItems, each.get inItems within⟩

/-- A list is read again item by item. -/
theorem listOf (codec : IsCodec decode encode) :
    IsCodec (Json.listOf decode) fun reads => .array (reads.map encode) where
  again {value reads} found := by
    cases value with
    | array items =>
        rw [Json.listOf, mapM_eq_some_iff, List.forall₂_map_left_iff, List.forall₂_same]
        intro read isRead
        obtain ⟨item, -, decoded⟩ := exists_of_mapM found read isRead
        exact codec.again decoded
    | _ => cases found
  fits {value reads} found := by
    cases value with
    | array items =>
        rw [Value.depth]
        refine .array (List.forall_mem_map.mpr fun read isRead => ?_)
        obtain ⟨item, isItem, decoded⟩ := exists_of_mapM found read isRead
        exact (codec.fits decoded).mono (Value.depthOfItems_le_iff.mp le_rfl item isItem)
    | _ => cases found
  present _ := Value.noConfusion

/-- An empty list is left out. -/
theorem list (codec : IsCodec decode encode) (bounded : fields.Bounded depth)
    {reads : List α} (found : fields.list place name (Json.listOf decode) = some reads) :
    RereadsField depth name (·.list place name (Json.listOf decode)) (listed encode reads)
      reads := by
  cases reads with
  | nil =>
      refine ⟨by simp [listed], fun entries written => ?_⟩
      rw [Fields.list, Fields.get?, written, listed]
  | cons read reads =>
      unfold Fields.list at found
      split at found
      case h_1 => cases found
      case h_2 value got =>
        refine ⟨fun _ same => Option.some.inj same ▸ (codec.listOf.fits found).mono (bounded got),
          fun entries written => ?_⟩
        rw [Fields.list, Fields.get?, written]
        exact codec.listOf.again found

/-- A record is read again if its fields are. -/
theorem record {names : List String} {read : Fields → Option α} (slots : α → List Slot)
    (nodup : names.Nodup) (named : ∀ result, (slots result).map Prod.fst = names)
    (reads : ∀ value, decode value = (Fields.ofValue? names value).bind read)
    (writes : ∀ result, encode result = .object (entriesOf (slots result)))
    (rereads : ∀ {depth : Nat} {fields : Fields} {result : α}, fields.Bounded depth →
      read fields = some result → RereadsFields depth (slots result) read result) :
    IsCodec decode encode where
  again {value result} found := by
    rw [reads] at found
    obtain ⟨fields, got, built⟩ := Option.bind_eq_some_iff.mp found
    obtain ⟨depth, -, bounded⟩ := Fields.bounded_of_ofValue? got
    have distinct := (named result).symm ▸ nodup
    rw [reads, writes, ← named result, Fields.ofValue?_entriesOf distinct, Option.bind_some]
    exact (rereads bounded built).again _ (lookup_entriesOf distinct)
  fits {value result} found := by
    rw [reads] at found
    obtain ⟨fields, got, built⟩ := Option.bind_eq_some_iff.mp found
    obtain ⟨depth, same, bounded⟩ := Fields.bounded_of_ofValue? got
    rw [writes, same]
    refine .object fun entry isEntry => ?_
    obtain ⟨slot, isSlot, value, isValue, rfl⟩ := mem_entriesOf.mp isEntry
    exact (rereads bounded built).fits slot isSlot value isValue
  present result := by
    rw [writes]
    exact Value.noConfusion

end IsCodec

end ComponentModel.Json
