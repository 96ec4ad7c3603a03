import ComponentModel.Code.ProfileDocument
import ComponentModel.Proofs.Json.Codecs

/-!
# Profiles in documents

A document overrides a default profile. It is read exactly if all its keys are fields and all its
values have the types of these; what is read then holds every value of the document, and agrees with
the default profile in all other fields. A written profile overrides every field, so it is read as
it was.
-/

namespace ComponentModel.Code

open Json (Value Fields)
open Equation (MathFunction)

/-! ## Keys of fields -/

namespace Field

theorem mem_all : ∀ field : Field, field ∈ all := by
  rintro (_ | ⟨⟨⟩⟩ | ⟨⟨⟩⟩ | ⟨⟨⟩⟩) <;> decide +kernel

/-- The bytes of a text as one number. -/
def spelling (text : String) : Nat :=
  text.toByteArray.data.toList.foldl (fun number byte => 256 * number + byte.toNat) 0

/-- No two fields have one key. Their spellings are numbers, and comparing these takes far fewer
steps than comparing the keys. -/
theorem nodup_keys : (all.map key).Nodup := by
  have apart : ((all.map key).map spelling).Nodup := by decide +kernel
  exact apart.of_map spelling

theorem ofKey?_eq_some_iff {written : String} {field : Field} :
    ofKey? written = some field ↔ field.key = written := by
  constructor
  · intro found
    simpa using List.find?_some found
  · rintro rfl
    cases found : ofKey? field.key with
    | none => simpa using List.find?_eq_none.mp found field (mem_all field)
    | some other =>
        have same : other.key = field.key := by simpa using List.find?_some found
        rw [List.inj_on_of_nodup_map nodup_keys (mem_all other) (mem_all field) same]

theorem key_injective {field other : Field} (same : field.key = other.key) : field = other := by
  have found := ofKey?_eq_some_iff.mpr same
  rw [ofKey?_eq_some_iff.mpr rfl] at found
  exact (Option.some.inj found).symm

end Field

/-! ## Values of fields -/

/-- The values that a kind is written as. -/
inductive ProfileKind.WrittenAs (kind : ProfileKind) : Value → Prop where
  | word : WrittenAs kind (.string kind.word)
  | key : WrittenAs kind (.object [(kind.word, .null)])

theorem ProfileKind.ofWord?_eq_some_iff {written : String} {kind : ProfileKind} :
    ofWord? written = some kind ↔ kind.word = written := by
  constructor
  · intro found
    simpa using List.find?_some found
  · rintro rfl
    cases kind <;> decide

theorem ProfileKind.ofValue?_eq_some_iff {value : Value} {kind : ProfileKind} :
    ofValue? value = some kind ↔ kind.WrittenAs value := by
  constructor
  · intro read
    unfold ofValue? at read
    split at read
    next written =>
      obtain rfl := ofWord?_eq_some_iff.mp read
      exact .word
    next written =>
      obtain rfl := ofWord?_eq_some_iff.mp read
      exact .key
    next => cases read
  · rintro (_ | _) <;> exact ofWord?_eq_some_iff.mpr rfl

/-- Whether a value, if there is one, is a text. Where there is none, the text is empty. -/
def IsTextOrMissing (value : Option Value) (text : String) : Prop :=
  match value with
  | some value => value = .string text
  | none => text = ""

/-- The values that a function is written as: an object of its two texts, or an array of them in
order. Either text may be left out, in an array only from the end. -/
inductive HelperFunction.WrittenAs (function : HelperFunction) : Value → Prop where
  | object {entries : List (String × Value)} (distinct : (entries.map Prod.fst).Nodup)
      (known : ∀ entry ∈ entries, entry.1 = "interface" ∨ entry.1 = "implementation")
      (interface : IsTextOrMissing (entries.lookup "interface") function.interface)
      (implementation : IsTextOrMissing (entries.lookup "implementation") function.implementation) :
      WrittenAs function (.object entries)
  | array {items : List Value} (short : items.length ≤ 2)
      (interface : IsTextOrMissing items[0]? function.interface)
      (implementation : IsTextOrMissing items[1]? function.implementation) :
      WrittenAs function (.array items)

theorem asString?_eq_some_iff {value : Value} {text : String} :
    value.asString? = some text ↔ value = .string text := by
  cases value <;> simp [Value.asString?]

theorem asBool?_eq_some_iff {value : Value} {flag : Bool} :
    value.asBool? = some flag ↔ value = .bool flag := by
  cases value <;> simp [Value.asBool?]

theorem textOrEmpty_eq_some_iff {fields : Fields} {place : Nat} {key text : String} :
    textOrEmpty fields place key = some text ↔ IsTextOrMissing (fields.get? place key) text := by
  unfold textOrEmpty
  cases fields.get? place key with
  | none => exact Option.some_inj.trans eq_comm
  | some value => exact asString?_eq_some_iff

namespace HelperFunction

/-- A function is made of its two texts. -/
theorem ofFields_eq_some_iff {fields : Fields} {function : HelperFunction} :
    (do
      return HelperFunction.mk (← textOrEmpty fields 0 "interface")
        (← textOrEmpty fields 1 "implementation")) = some function ↔
      IsTextOrMissing (fields.get? 0 "interface") function.interface ∧
        IsTextOrMissing (fields.get? 1 "implementation") function.implementation := by
  obtain ⟨interface, implementation⟩ := function
  rw [← textOrEmpty_eq_some_iff, ← textOrEmpty_eq_some_iff]
  cases textOrEmpty fields 0 "interface" <;> cases textOrEmpty fields 1 "implementation" <;> simp

theorem fields_object {entries : List (String × Value)} {fields : Fields} :
    Fields.ofValue? ["interface", "implementation"] (.object entries) = some fields ↔
      ((entries.map Prod.fst).Nodup ∧
        ∀ entry ∈ entries, entry.1 = "interface" ∨ entry.1 = "implementation") ∧
      .named entries = fields := by
  simp [Fields.ofValue?, ← Json.length_eraseDups_eq_iff, and_comm]

theorem fields_array {items : List Value} {fields : Fields} :
    Fields.ofValue? ["interface", "implementation"] (.array items) = some fields ↔
      items.length ≤ 2 ∧ .positional items = fields := by
  simp [Fields.ofValue?]

theorem ofValue?_eq_some_iff {value : Value} {function : HelperFunction} :
    ofValue? value = some function ↔ function.WrittenAs value := by
  refine Option.bind_eq_some_iff.trans ⟨?_, fun written => ?_⟩
  · rintro ⟨fields, isRecord, read⟩
    obtain ⟨interface, implementation⟩ := ofFields_eq_some_iff.mp read
    cases value with
    | object entries =>
        obtain ⟨⟨distinct, known⟩, rfl⟩ := fields_object.mp isRecord
        exact .object distinct known interface implementation
    | array items =>
        obtain ⟨short, rfl⟩ := fields_array.mp isRecord
        exact .array short interface implementation
    | _ => cases isRecord
  · cases written with
    | object distinct known interface implementation =>
        exact ⟨_, fields_object.mpr ⟨⟨distinct, known⟩, rfl⟩,
          ofFields_eq_some_iff.mpr ⟨interface, implementation⟩⟩
    | array short interface implementation =>
        exact ⟨_, fields_array.mpr ⟨short, rfl⟩,
          ofFields_eq_some_iff.mpr ⟨interface, implementation⟩⟩

end HelperFunction

/-- Whether a value has the type of a field. -/
def Field.HasType : Field → Value → Prop
  | .kind, value => ∃ kind : ProfileKind, kind.WrittenAs value
  | .text _, value => ∃ text, value = .string text
  | .flag _, value => ∃ flag, value = .bool flag
  | .function _, value => ∃ function : HelperFunction, function.WrittenAs value

namespace Profile

/-- Whether a profile has in a field what a value says. -/
def Holds (profile : Profile) : Field → Value → Prop
  | .kind, value => profile.kind.WrittenAs value
  | .text field, value => value = .string (profile.text field)
  | .flag field, value => value = .bool (profile.flag field)
  | .function function, value => (profile.function function).WrittenAs value

variable {profile other start : Profile} {field : Field} {value : Value}

theorem Holds.hasType (holds : profile.Holds field value) : field.HasType value := by
  cases field <;> exact ⟨_, holds⟩

/-- A value says what is in a field. -/
theorem Holds.agrees (holds : profile.Holds field value) (again : other.Holds field value) :
    profile.agrees other field = true := by
  cases field with
  | kind =>
      have read := ProfileKind.ofValue?_eq_some_iff.mpr holds
      rw [ProfileKind.ofValue?_eq_some_iff.mpr again] at read
      simpa [Profile.agrees] using (Option.some.inj read).symm
  | text field => simpa [Profile.agrees] using holds.symm.trans again
  | flag field => simpa [Profile.agrees] using holds.symm.trans again
  | function function =>
      have read := HelperFunction.ofValue?_eq_some_iff.mpr holds
      rw [HelperFunction.ofValue?_eq_some_iff.mpr again] at read
      simpa [Profile.agrees] using (Option.some.inj read).symm

theorem Holds.congr (agrees : profile.agrees other field = true) (holds : other.Holds field value) :
    profile.Holds field value := by
  cases field with
  | _ => simp_all [Profile.agrees, Holds]

theorem agrees_self (profile : Profile) (field : Field) : profile.agrees profile field = true := by
  cases field <;> simp [Profile.agrees]

theorem agrees_trans (first : profile.agrees other field = true)
    (second : other.agrees start field = true) : profile.agrees start field = true := by
  cases field with
  | _ => simp_all [Profile.agrees]

theorem eq_of_agrees (agrees : ∀ field, profile.agrees other field = true) : profile = other := by
  obtain ⟨kind, text, flag, function⟩ := profile
  obtain ⟨otherKind, otherText, otherFlag, otherFunction⟩ := other
  simp only [Profile.agrees] at agrees
  obtain rfl : kind = otherKind := by simpa using agrees .kind
  obtain rfl : text = otherText := funext fun field => by simpa using agrees (.text field)
  obtain rfl : flag = otherFlag := funext fun field => by simpa using agrees (.flag field)
  obtain rfl : function = otherFunction :=
    funext fun wanted => by simpa using agrees (.function wanted)
  rfl

/-! ## Overriding -/

theorem setField_eq_some {next : Profile} (set : profile.setField field value = some next) :
    next.Holds field value ∧ ∀ other ≠ field, next.agrees profile other = true := by
  cases field with
  | kind =>
      obtain ⟨kind, read, rfl⟩ := Option.map_eq_some_iff.mp set
      refine ⟨ProfileKind.ofValue?_eq_some_iff.mp read, fun other isOther => ?_⟩
      cases other <;> simp_all [Profile.agrees]
  | text field =>
      obtain ⟨text, read, rfl⟩ := Option.map_eq_some_iff.mp set
      refine ⟨?_, fun other isOther => ?_⟩
      · simpa [Holds, setText] using asString?_eq_some_iff.mp read
      · cases other <;> simp_all [Profile.agrees, setText]
  | flag field =>
      obtain ⟨flag, read, rfl⟩ := Option.map_eq_some_iff.mp set
      refine ⟨?_, fun other isOther => ?_⟩
      · simpa [Holds, setFlag] using asBool?_eq_some_iff.mp read
      · cases other <;> simp_all [Profile.agrees, setFlag]
  | function wanted =>
      obtain ⟨function, read, rfl⟩ := Option.map_eq_some_iff.mp set
      refine ⟨?_, fun other isOther => ?_⟩
      · simpa [Holds, setFunction] using HelperFunction.ofValue?_eq_some_iff.mp read
      · cases other <;> simp_all [Profile.agrees, setFunction]

theorem exists_setField_iff (profile : Profile) :
    (∃ next, profile.setField field value = some next) ↔ field.HasType value := by
  refine ⟨fun ⟨next, set⟩ => (setField_eq_some set).1.hasType, fun typed => ?_⟩
  cases field with
  | kind =>
      obtain ⟨kind, written⟩ := typed
      exact ⟨_, Option.map_eq_some_iff.mpr
        ⟨kind, ProfileKind.ofValue?_eq_some_iff.mpr written, rfl⟩⟩
  | text field =>
      obtain ⟨text, rfl⟩ := typed
      exact ⟨_, rfl⟩
  | flag field =>
      obtain ⟨flag, rfl⟩ := typed
      exact ⟨_, rfl⟩
  | function wanted =>
      obtain ⟨function, written⟩ := typed
      exact ⟨_, Option.map_eq_some_iff.mpr
        ⟨function, HelperFunction.ofValue?_eq_some_iff.mpr written, rfl⟩⟩

/-- The entries of a document under the keys of fields. -/
def keyed (fields : List (Field × Value)) : List (String × Value) :=
  fields.map fun entry => (entry.1.key, entry.2)

theorem knownFields_eq_ok_iff {entries : List (String × Value)} {fields : List (Field × Value)} :
    knownFields entries = .ok fields ↔ entries = keyed fields := by
  induction entries generalizing fields with
  | nil => cases fields <;> simp [knownFields, keyed]
  | cons entry entries ih =>
      obtain ⟨key, value⟩ := entry
      constructor
      · intro known
        unfold knownFields at known
        split at known
        next => cases known
        next field found =>
          obtain rfl := Field.ofKey?_eq_some_iff.mp found
          cases rest : knownFields entries with
          | error fault => simp [rest, Except.map] at known
          | ok others =>
              obtain rfl : (field, value) :: others = fields := by
                simpa [rest, Except.map] using known
              rw [ih.mp rest]
              rfl
      · intro same
        cases fields with
        | nil => cases same
        | cons first others =>
            obtain ⟨isFirst, isRest⟩ := List.cons.inj same
            obtain ⟨rfl, rfl⟩ := Prod.mk.inj isFirst
            rw [knownFields, Field.ofKey?_eq_some_iff.mpr rfl, ih.mpr isRest]
            rfl

theorem exists_keyed_iff {entries : List (String × Value)} :
    (∃ fields, entries = keyed fields) ↔
      ∀ entry ∈ entries, ∃ field : Field, field.key = entry.1 := by
  induction entries with
  | nil => exact ⟨fun _ => by simp, fun _ => ⟨[], rfl⟩⟩
  | cons entry entries ih =>
      rw [List.forall_mem_cons, ← ih]
      constructor
      · rintro ⟨_ | ⟨first, others⟩, same⟩
        · cases same
        · obtain ⟨rfl, rfl⟩ := List.cons.inj same
          exact ⟨⟨first.1, rfl⟩, others, rfl⟩
      · rintro ⟨⟨field, named⟩, others, rfl⟩
        exact ⟨(field, entry.2) :: others, by simp [keyed, named]⟩

theorem mem_keyed_iff {fields : List (Field × Value)} :
    (field.key, value) ∈ keyed fields ↔ (field, value) ∈ fields := by
  constructor
  · intro member
    obtain ⟨⟨other, kept⟩, isEntry, same⟩ := List.mem_map.mp member
    obtain ⟨sameKey, rfl⟩ := Prod.mk.inj same
    obtain rfl := Field.key_injective sameKey
    exact isEntry
  · exact fun member => List.mem_map_of_mem (f := fun entry => (entry.1.key, entry.2)) member

theorem keys_keyed (fields : List (Field × Value)) :
    (keyed fields).map Prod.fst = (fields.map Prod.fst).map Field.key := by
  simp [keyed, Function.comp_def]

/-- Override fields one after the other. -/
def setAll (start : Profile) (fields : List (Field × Value)) : Option Profile :=
  fields.foldlM (fun profile entry => profile.setField entry.1 entry.2) start

theorem setAll_cons {entry : Field × Value} {fields : List (Field × Value)} :
    start.setAll (entry :: fields) = some profile ↔
      ∃ next, start.setField entry.1 entry.2 = some next ∧ next.setAll fields = some profile := by
  rw [setAll, List.foldlM_cons]
  exact Option.bind_eq_some_iff

theorem exists_setAll_iff {fields : List (Field × Value)} :
    (∃ profile, start.setAll fields = some profile) ↔
      ∀ entry ∈ fields, entry.1.HasType entry.2 := by
  induction fields generalizing start with
  | nil => exact ⟨fun _ => by simp, fun _ => ⟨start, rfl⟩⟩
  | cons entry fields ih =>
      rw [List.forall_mem_cons, ← exists_setField_iff start]
      constructor
      · rintro ⟨profile, set⟩
        obtain ⟨next, first, rest⟩ := setAll_cons.mp set
        exact ⟨⟨next, first⟩, ih.mp ⟨profile, rest⟩⟩
      · rintro ⟨⟨next, first⟩, typed⟩
        obtain ⟨profile, rest⟩ := ih.mpr typed
        exact ⟨profile, setAll_cons.mpr ⟨next, first, rest⟩⟩

/-- What is left of the default profile are the fields that are not overridden. The induction is
over the fields, for any profile before them: no later field touches an earlier one. -/
theorem setAll_eq_some {fields : List (Field × Value)}
    (distinct : (fields.map Prod.fst).Nodup) (set : start.setAll fields = some profile) :
    (∀ entry ∈ fields, profile.Holds entry.1 entry.2) ∧
      ∀ field ∉ fields.map Prod.fst, profile.agrees start field = true := by
  induction fields generalizing start with
  | nil =>
      obtain rfl := Option.some.inj set
      exact ⟨by simp, fun field _ => start.agrees_self field⟩
  | cons entry fields ih =>
      obtain ⟨next, first, rest⟩ := setAll_cons.mp set
      obtain ⟨fresh, distinct⟩ := List.nodup_cons.mp distinct
      obtain ⟨holds, agrees⟩ := ih distinct rest
      obtain ⟨held, kept⟩ := setField_eq_some first
      refine ⟨List.forall_mem_cons.mpr ⟨held.congr (agrees _ fresh), holds⟩, ?_⟩
      intro field absent
      rw [List.map_cons, List.mem_cons, not_or] at absent
      exact agrees_trans (agrees field absent.2) (kept field absent.1)

/-- The kind whose default profile a document starts from. -/
def StartsFrom (entries : List (String × Value)) (kind : ProfileKind) : Prop :=
  match entries.lookup "kind" with
  | some value => kind.WrittenAs value
  | none => kind = .c

theorem override_eq {kind : ProfileKind} {entries : List (String × Value)} :
    fromValue.override kind entries = (knownFields entries).bind fun fields =>
      match (ofKind kind).setAll fields with
      | some profile => .ok profile
      | none => .error .unreadable := rfl

theorem override_eq_ok_iff {kind : ProfileKind} {entries : List (String × Value)} :
    fromValue.override kind entries = .ok profile ↔
      ∃ fields, entries = keyed fields ∧ (ofKind kind).setAll fields = some profile := by
  rw [override_eq]
  constructor
  · intro read
    cases known : knownFields entries with
    | error fault => simp [known, Except.bind] at read
    | ok fields =>
        refine ⟨fields, knownFields_eq_ok_iff.mp known, ?_⟩
        cases set : (ofKind kind).setAll fields with
        | none => simp [known, set, Except.bind] at read
        | some found => simpa [known, set, Except.bind] using read
  · rintro ⟨fields, keys, set⟩
    simp [knownFields_eq_ok_iff.mpr keys, set, Except.bind]

/-- What it takes for a document to be read, and what is read. -/
theorem fromValue_eq_ok_iff {written : Value} {entries : List (String × Value)}
    (collapsed : written.collapse = .object entries) :
    fromValue written = .ok profile ↔
      ∃ kind fields, StartsFrom entries kind ∧ entries = keyed fields ∧
        (ofKind kind).setAll fields = some profile := by
  simp only [fromValue, collapsed, StartsFrom]
  cases entries.lookup "kind" with
  | none => simpa using override_eq_ok_iff
  | some value =>
      simp only [← ProfileKind.ofValue?_eq_some_iff]
      cases ProfileKind.ofValue? value with
      | none => simp
      | some kind => simpa using override_eq_ok_iff

/-- A document is read if its kind is one of a profile, its keys are fields and its values have the
types of these. -/
theorem exists_fromValue_iff {written : Value} {entries : List (String × Value)}
    (collapsed : written.collapse = .object entries) :
    (∃ profile, fromValue written = .ok profile) ↔
      (∀ value, entries.lookup "kind" = some value → ∃ kind : ProfileKind, kind.WrittenAs value) ∧
        ∀ entry ∈ entries, ∃ field : Field, field.key = entry.1 ∧ field.HasType entry.2 := by
  simp only [fromValue_eq_ok_iff collapsed]
  constructor
  · rintro ⟨profile, kind, fields, starts, rfl, set⟩
    have typed := exists_setAll_iff.mp ⟨profile, set⟩
    refine ⟨fun value found => ?_, fun entry member => ?_⟩
    · rw [StartsFrom, found] at starts
      exact ⟨kind, starts⟩
    · obtain ⟨⟨field, value⟩, isEntry, rfl⟩ := List.mem_map.mp member
      exact ⟨field, rfl, typed _ isEntry⟩
  · rintro ⟨isKind, typed⟩
    obtain ⟨fields, rfl⟩ :=
      exists_keyed_iff.mpr fun entry member => (typed entry member).imp fun _ named => named.1
    have fieldsTyped : ∀ entry ∈ fields, entry.1.HasType entry.2 := by
      intro entry member
      obtain ⟨field, same, hasType⟩ := typed _ (mem_keyed_iff.mpr member)
      rwa [Field.key_injective same] at hasType
    obtain ⟨kind, starts⟩ : ∃ kind, StartsFrom (keyed fields) kind := by
      unfold StartsFrom
      cases found : (keyed fields).lookup "kind" with
      | none => exact ⟨.c, rfl⟩
      | some value => exact isKind value found
    obtain ⟨profile, set⟩ := exists_setAll_iff.mpr fieldsTyped
    exact ⟨profile, kind, fields, starts, rfl, set⟩

/-- What is read holds the values of the document, and agrees with the default profile elsewhere. -/
theorem fields_of_fromValue {written : Value} {entries : List (String × Value)}
    (collapsed : written.collapse = .object entries) (distinct : (entries.map Prod.fst).Nodup)
    (read : fromValue written = .ok profile) :
    ∃ kind, StartsFrom entries kind ∧ ∀ field : Field,
      (∀ value, entries.lookup field.key = some value → profile.Holds field value) ∧
        (entries.lookup field.key = none → profile.agrees (ofKind kind) field = true) := by
  obtain ⟨kind, fields, starts, rfl, set⟩ := (fromValue_eq_ok_iff collapsed).mp read
  rw [keys_keyed] at distinct
  obtain ⟨holds, agrees⟩ := setAll_eq_some (distinct.of_map Field.key) set
  refine ⟨kind, starts, fun field => ⟨fun value found => ?_, fun absent => agrees field ?_⟩⟩
  · exact holds _ (mem_keyed_iff.mp (Json.mem_of_lookup found))
  · intro member
    have isKey : field.key ∈ (keyed fields).map Prod.fst := by
      rw [keys_keyed]
      exact List.mem_map_of_mem member
    rw [← Json.isSome_lookup_iff, absent] at isKey
    cases isKey

/-! ## Written profiles -/

theorem read_of_read? {text : String} {written : Value} (found : Value.read? text = some written) :
    Profile.read text = fromValue written := by
  rw [Profile.read, found]

/-- The document value of a profile. -/
def toValue (profile : Profile) : Value :=
  .object (Field.all.map fun field => (field.key, profile.fieldValue field))

/-- A profile has no numbers and nests no deeper than its functions. -/
theorem read?_toJson (profile : Profile) : Value.read? profile.toJson = some profile.toValue := by
  refine Value.read?_pretty (fun number isNumber => ?_) ?_
  · obtain ⟨entry, member, isNumber⟩ := Value.mem_entryNumbers.mp isNumber
    obtain ⟨field, -, rfl⟩ := List.mem_map.mp member
    cases field <;> simp [fieldValue, HelperFunction.toValue, Value.numbers, Value.entryNumbers]
      at isNumber
  · have flat : Value.depthOfEntries (Field.all.map fun field =>
        (field.key, profile.fieldValue field)) ≤ 1 := by
      refine Value.depthOfEntries_le_iff.mpr fun entry member => ?_
      obtain ⟨field, -, rfl⟩ := List.mem_map.mp member
      cases field <;> simp [fieldValue, HelperFunction.toValue, Value.depth, Value.depthOfEntries]
    exact (Nat.succ_le_succ flat).trans (by decide)

/-- The value of a field holds what is in the field. -/
theorem holds_fieldValue (profile : Profile) (field : Field) :
    profile.Holds field (profile.fieldValue field).collapse := by
  cases field with
  | kind => exact .word
  | text field => rfl
  | flag field => rfl
  | function wanted =>
      have sorted : (HelperFunction.toValue (profile.function wanted)).collapse =
          .object [("implementation", .string (profile.function wanted).implementation),
            ("interface", .string (profile.function wanted).interface)] := by
        have before : "implementation" < "interface" := by decide +kernel
        simp [HelperFunction.toValue, Value.collapse, Value.collapseEntries, Json.sortEntries,
          Json.insertSorted, before]
      rw [Holds, fieldValue, sorted]
      exact .object (by simp) (by simp) rfl rfl

/-- A written profile has the key of every field, with what is in the field, and no other key. -/
theorem exists_collapse_toValue (profile : Profile) :
    ∃ entries, profile.toValue.collapse = .object entries ∧ ∀ key value,
      entries.lookup key = some value ↔
        ∃ field : Field, field.key = key ∧ (profile.fieldValue field).collapse = value := by
  refine ⟨_, rfl, fun key value => ?_⟩
  have distinct : ((Field.all.map fun field =>
      (field.key, (profile.fieldValue field).collapse)).map Prod.fst).Nodup := by
    simpa [Function.comp_def] using Field.nodup_keys
  rw [Json.lookup_sortEntries, Value.collapseEntries_eq, List.map_map]
  refine Eq.to_iff (congrArg (· = some value) (Json.lookup_reverse distinct)) |>.trans ⟨?_, ?_⟩
  · intro found
    obtain ⟨field, -, same⟩ := List.mem_map.mp (Json.mem_of_lookup found)
    exact ⟨field, Prod.mk.inj same⟩
  · rintro ⟨field, rfl, rfl⟩
    exact Json.lookup_of_mem distinct (List.mem_map.mpr ⟨field, Field.mem_all field, rfl⟩)

/-- A written profile is read as it was. -/
theorem read_of_toJson (profile : Profile) : Profile.read profile.toJson = .ok profile := by
  obtain ⟨entries, collapsed, lookup⟩ := profile.exists_collapse_toValue
  have distinct := Value.nodup_of_collapse collapsed
  have isKind : ∀ value, entries.lookup "kind" = some value →
      ∃ kind : ProfileKind, kind.WrittenAs value := by
    intro value found
    obtain ⟨field, same, rfl⟩ := (lookup _ _).mp found
    obtain rfl : field = .kind := Field.key_injective same
    exact ⟨profile.kind, profile.holds_fieldValue .kind⟩
  have typed : ∀ entry ∈ entries, ∃ field : Field, field.key = entry.1 ∧ field.HasType entry.2 := by
    intro entry member
    obtain ⟨field, same, isValue⟩ := (lookup _ _).mp (Json.lookup_of_mem distinct member)
    exact ⟨field, same, isValue ▸ (profile.holds_fieldValue field).hasType⟩
  obtain ⟨found, read⟩ := (exists_fromValue_iff collapsed).mpr ⟨isKind, typed⟩
  obtain ⟨kind, -, fields⟩ := fields_of_fromValue collapsed distinct read
  have agrees (field : Field) : found.agrees profile field = true :=
    ((fields field).1 _ ((lookup _ _).mpr ⟨field, rfl, rfl⟩)).agrees
      (profile.holds_fieldValue field)
  rw [read_of_read? profile.read?_toJson, read, eq_of_agrees agrees]

/-- A written profile is read as it was. A document that is an object is read exactly if its kind is
one of a profile, its keys are fields and its values have the types of these; what is read then has
every value of the document, and in all other fields what the default profile of the kind has. -/
theorem read_toJson_and_read_iff :
    (∀ profile : Profile, Profile.read profile.toJson = .ok profile) ∧
    ∀ (text : String) (written : Value) (entries : List (String × Value)),
      Value.read? text = some written → written.collapse = .object entries →
        ((∃ profile, Profile.read text = .ok profile) ↔
          (∀ value, entries.lookup "kind" = some value →
            ∃ kind : ProfileKind, kind.WrittenAs value) ∧
          ∀ entry ∈ entries, ∃ field : Field, field.key = entry.1 ∧ field.HasType entry.2) ∧
        ∀ profile, Profile.read text = .ok profile →
          ∃ kind, StartsFrom entries kind ∧ ∀ field : Field,
            (∀ value, entries.lookup field.key = some value → profile.Holds field value) ∧
            (entries.lookup field.key = none → profile.agrees (ofKind kind) field = true) := by
  refine ⟨read_of_toJson, fun text written entries found collapsed => ?_⟩
  rw [read_of_read? found]
  exact ⟨exists_fromValue_iff collapsed, fun profile read =>
    fields_of_fromValue collapsed (Value.nodup_of_collapse collapsed) read⟩

/-- A document for Python with tabs. -/
def tabbed : Value :=
  .object [("indent_string", .string "\t"), ("kind", .string "python")]

theorem tabbed_read : ∃ profile, Profile.read tabbed.pretty = .ok profile ∧
    profile.kind = .python ∧ profile.text .indent = "\t" ∧
    profile.text .power = PythonDefaults.text .power ∧
    Profile.read profile.toJson = .ok profile := by
  obtain ⟨again, readIff⟩ := read_toJson_and_read_iff
  have found : Value.read? tabbed.pretty = some tabbed :=
    Value.read?_pretty (by simp [tabbed, Value.numbers, Value.entryNumbers]) (by decide)
  have collapsed : tabbed.collapse = tabbed := by
    have notBefore : ¬"kind" < "indent_string" := by decide +kernel
    simp [tabbed, Value.collapse, Value.collapseEntries, Json.sortEntries, Json.insertSorted,
      notBefore]
  obtain ⟨succeeds, fields⟩ := readIff _ tabbed _ found collapsed
  have python : ProfileKind.python.WrittenAs (.string "python") := .word
  obtain ⟨profile, read⟩ := succeeds.mpr ⟨by simpa [Json.lookup_cons_eq] using ⟨_, python⟩, by
    simpa using ⟨⟨.text .indent, rfl, "\t", rfl⟩, ⟨.kind, rfl, _, python⟩⟩⟩
  obtain ⟨kind, starts, isField⟩ := fields profile read
  have isPython (kind : ProfileKind) (written : kind.WrittenAs (.string "python")) :
      kind = .python := by
    simpa [ProfileKind.ofValue?_eq_some_iff.mpr python] using
      (ProfileKind.ofValue?_eq_some_iff.mpr written).symm
  obtain rfl := isPython kind (by simpa [StartsFrom, Json.lookup_cons_eq] using starts)
  have indent := (isField (.text .indent)).1 (.string "\t") rfl
  have power := (isField (.text .power)).2 rfl
  refine ⟨profile, read, isPython _ ((isField .kind).1 (.string "python") rfl), ?_, ?_,
    again profile⟩
  · simpa [Holds] using indent.symm
  · simpa [Profile.agrees, ofKind] using power

end Profile

end ComponentModel.Code
