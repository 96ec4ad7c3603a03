import ComponentModel.Model.Document
import ComponentModel.Proofs.Json.Scanning

/-!
# Reading what has been written

A written document value is cut into its tokens, and these are read back to the value, unless arrays
and objects nest too deep. Nothing that has been read nests too deep.
-/

namespace ComponentModel.Json

namespace Value

/-! ## The tokens and numbers of a value -/

mutual

/-- The tokens of a written value. -/
def tokens : Value → List Token
  | .null => [.null]
  | .bool value => [.bool value]
  | .number value => [.number value]
  | .string value => [.string value]
  | .array [] => [.arrayOpen, .arrayClose]
  | .array (item :: rest) => .arrayOpen :: (item.tokens ++ itemTokens rest ++ [.arrayClose])
  | .object [] => [.objectOpen, .objectClose]
  | .object ((key, value) :: rest) =>
      .objectOpen :: .string key :: .colon ::
        (value.tokens ++ entryTokens rest ++ [.objectClose])

/-- The tokens of the items behind the first one. -/
def itemTokens : List Value → List Token
  | [] => []
  | item :: rest => .comma :: (item.tokens ++ itemTokens rest)

/-- The tokens of the entries behind the first one. -/
def entryTokens : List (String × Value) → List Token
  | [] => []
  | (key, value) :: rest =>
      .comma :: .string key :: .colon :: (value.tokens ++ entryTokens rest)

end

mutual

/-- All numbers in a value. -/
def numbers : Value → List Number
  | .number value => [value]
  | .array items => itemNumbers items
  | .object entries => entryNumbers entries
  | _ => []

/-- All numbers in items. -/
def itemNumbers : List Value → List Number
  | [] => []
  | item :: rest => item.numbers ++ itemNumbers rest

/-- All numbers in the values of entries. -/
def entryNumbers : List (String × Value) → List Number
  | [] => []
  | (_, value) :: rest => value.numbers ++ entryNumbers rest

end

/-! ## Writing and scanning -/

theorem ends_newLine (depth : Nat) (rest : List Char) : Ends ((newLine depth).toList ++ rest) := by
  rw [newLine, String.toList_ofList]
  exact isSpace_ends rfl _

theorem ends_writeItems {rest : List Char} (ends : Ends rest) (depth : Nat) (items : List Value) :
    Ends ((writeItems depth items).toList ++ rest) := by
  cases items with
  | nil => simpa [writeItems] using ends
  | cons item items =>
      simp only [writeItems, String.toList_append, List.append_assoc]
      rintro next ⟨⟩
      decide

theorem ends_writeEntries {rest : List Char} (ends : Ends rest) (depth : Nat)
    (entries : List (String × Value)) : Ends ((writeEntries depth entries).toList ++ rest) := by
  cases entries with
  | nil => simpa [writeEntries] using ends
  | cons entry entries =>
      simp only [writeEntries, String.toList_append, List.append_assoc]
      rintro next ⟨⟩
      decide

/-- An entry of an object, in front of anything. -/
theorem scans_key (key : String) {rest : List Char} {tokens : List Token}
    (scans : Scans rest tokens) :
    Scans ((quoted key).toList ++ (": ".toList ++ rest)) (.string key :: .colon :: tokens) :=
  .quoted key (.token rfl rfl (by simp) (.space rfl scans))

mutual

/-- A written value is cut into its tokens. -/
theorem scans_write (value : Value) (depth : Nat) {rest : List Char} {tokens : List Token}
    (survive : ∀ number ∈ value.numbers, number.Survives) (ends : Ends rest)
    (scans : Scans rest tokens) :
    Scans ((value.write depth).toList ++ rest) (value.tokens ++ tokens) := by
  match value with
  | .null =>
      rw [write, Value.tokens]
      exact .fixed rfl rfl (fun _ => rfl) scans
  | .bool true =>
      rw [write, Value.tokens, if_pos rfl]
      exact .fixed rfl rfl (fun _ => rfl) scans
  | .bool false =>
      rw [write, Value.tokens, if_neg Bool.false_ne_true]
      exact .fixed rfl rfl (fun _ => rfl) scans
  | .number digits =>
      rw [write, Value.tokens]
      exact survive digits (by rw [numbers]; exact List.mem_cons_self) ends scans
  | .string text =>
      rw [write, Value.tokens]
      exact .quoted text scans
  | .array [] =>
      have close : Scans ("]".toList ++ rest) ([.arrayClose] ++ tokens) :=
        .fixed rfl rfl (fun _ => rfl) scans
      have both : Scans ("[".toList ++ ("]".toList ++ rest)) (.arrayOpen :: .arrayClose :: tokens) :=
        .fixed rfl rfl (fun _ => rfl) close
      rw [write, Value.tokens]
      exact both
  | .array (item :: items) =>
      rw [numbers, itemNumbers, List.forall_mem_append] at survive
      rw [write, Value.tokens]
      simp only [String.toList_append, List.append_assoc, List.cons_append]
      have close : Scans ((newLine depth).toList ++ ("]".toList ++ rest))
          ([.arrayClose] ++ tokens) := .newLine depth (.fixed rfl rfl (fun _ => rfl) scans)
      have others := scans_writeItems items (depth + 1) survive.2 (ends_newLine depth _) close
      have first := scans_write item (depth + 1) survive.1
        (ends_writeItems (ends_newLine depth _) (depth + 1) items) others
      exact .fixed rfl rfl (fun _ => rfl) (.newLine _ first)
  | .object [] =>
      have close : Scans ("\x7d".toList ++ rest) ([.objectClose] ++ tokens) :=
        .fixed rfl rfl (fun _ => rfl) scans
      have both : Scans ("\x7b".toList ++ ("\x7d".toList ++ rest))
          (.objectOpen :: .objectClose :: tokens) := .fixed rfl rfl (fun _ => rfl) close
      rw [write, Value.tokens]
      exact both
  | .object ((key, value) :: entries) =>
      rw [numbers, entryNumbers, List.forall_mem_append] at survive
      rw [write, Value.tokens]
      simp only [String.toList_append, List.append_assoc, List.cons_append]
      have close : Scans ((newLine depth).toList ++ ("\x7d".toList ++ rest))
          ([.objectClose] ++ tokens) := .newLine depth (.fixed rfl rfl (fun _ => rfl) scans)
      have others := scans_writeEntries entries (depth + 1) survive.2 (ends_newLine depth _) close
      have first := scans_write value (depth + 1) survive.1
        (ends_writeEntries (ends_newLine depth _) (depth + 1) entries) others
      exact .fixed rfl rfl (fun _ => rfl) (.newLine _ (scans_key key first))

theorem scans_writeItems (items : List Value) (depth : Nat) {rest : List Char}
    {tokens : List Token} (survive : ∀ number ∈ itemNumbers items, number.Survives)
    (ends : Ends rest) (scans : Scans rest tokens) :
    Scans ((writeItems depth items).toList ++ rest) (itemTokens items ++ tokens) := by
  match items with
  | [] => simpa [writeItems, itemTokens] using scans
  | item :: items =>
      rw [itemNumbers, List.forall_mem_append] at survive
      rw [writeItems, itemTokens]
      simp only [String.toList_append, List.append_assoc, List.cons_append]
      have others := scans_writeItems items depth survive.2 ends scans
      have first := scans_write item depth survive.1 (ends_writeItems ends depth items) others
      exact .fixed rfl rfl (fun _ => rfl) (.newLine _ first)

theorem scans_writeEntries (entries : List (String × Value)) (depth : Nat) {rest : List Char}
    {tokens : List Token} (survive : ∀ number ∈ entryNumbers entries, number.Survives)
    (ends : Ends rest) (scans : Scans rest tokens) :
    Scans ((writeEntries depth entries).toList ++ rest) (entryTokens entries ++ tokens) := by
  match entries with
  | [] => simpa [writeEntries, entryTokens] using scans
  | (key, value) :: entries =>
      rw [entryNumbers, List.forall_mem_append] at survive
      rw [writeEntries, entryTokens]
      simp only [String.toList_append, List.append_assoc, List.cons_append]
      have others := scans_writeEntries entries depth survive.2 ends scans
      have first := scans_write value depth survive.1 (ends_writeEntries ends depth entries) others
      exact .fixed rfl rfl (fun _ => rfl) (.newLine _ (scans_key key first))

end

end Value

/-! ## Reading tokens -/

namespace Reading

theorem run_cons {reading next : Reading} {token : Token} (step : reading.step token = some next)
    (rest : List Token) : reading.run (token :: rest) = next.run rest := by
  rw [run, step]

/-- Where a first item may stand, a value is read like any item. -/
theorem run_item (value : Value) (frames : List Frame) (rest : List Token) :
    (item frames).run (value.tokens ++ rest) =
      (Reading.value (.array [] :: frames)).run (value.tokens ++ rest) := by
  match value with
  | .null | .bool _ | .number _ | .string _ => rfl
  | .array [] | .array (_ :: _) | .object [] | .object (_ :: _) =>
      rw [Value.tokens]
      rfl

mutual

/-- The tokens of a value are read back to it. -/
theorem run_tokens (value : Value) (frames : List Frame)
    (within : value.depth + frames.length ≤ nestingLimit) (rest : List Token) :
    (Reading.value frames).run (value.tokens ++ rest) = (after value frames).run rest := by
  match value with
  | .null | .bool _ | .number _ | .string _ =>
      rw [Value.tokens]
      rfl
  | .array [] =>
      rw [Value.depth, Value.depthOfItems] at within
      have opens : (Reading.value frames).step .arrayOpen = some (item frames) :=
        if_pos (by omega)
      rw [Value.tokens, List.cons_append, run_cons opens]
      rfl
  | .array (first :: items) =>
      rw [Value.depth, Value.depthOfItems] at within
      have opens : (Reading.value frames).step .arrayOpen = some (item frames) :=
        if_pos (by omega)
      rw [Value.tokens, List.cons_append, run_cons opens, List.append_assoc, List.append_assoc,
        run_item, run_tokens first (.array [] :: frames) (by rw [List.length_cons]; omega),
        List.singleton_append, run_itemTokens items first [] frames (by omega)]
      rfl
  | .object [] =>
      rw [Value.depth, Value.depthOfEntries] at within
      have opens : (Reading.value frames).step .objectOpen = some (entry frames) :=
        if_pos (by omega)
      rw [Value.tokens, List.cons_append, run_cons opens]
      rfl
  | .object ((label, first) :: entries) =>
      rw [Value.depth, Value.depthOfEntries] at within
      have opens : (Reading.value frames).step .objectOpen = some (entry frames) :=
        if_pos (by omega)
      have labelled : (entry frames).step (.string label) = some (colon [] label frames) := rfl
      have awaits : (colon [] label frames).step .colon =
        some (Reading.value (.object [] label :: frames)) := rfl
      rw [Value.tokens, List.cons_append, run_cons opens, List.cons_append, run_cons labelled,
        List.cons_append, run_cons awaits, List.append_assoc, List.append_assoc,
        run_tokens first (.object [] label :: frames) (by rw [List.length_cons]; omega),
        List.singleton_append, run_entryTokens entries first [] label frames (by omega)]
      rfl

theorem run_itemTokens (items : List Value) (found : Value) (done : List Value)
    (frames : List Frame)
    (within : Value.depthOfItems items + (frames.length + 1) ≤ nestingLimit) (rest : List Token) :
    (after found (.array done :: frames)).run (Value.itemTokens items ++ .arrayClose :: rest) =
      (after (.array ((found :: done).reverse ++ items)) frames).run rest := by
  match items with
  | [] =>
      rw [Value.itemTokens, List.append_nil]
      rfl
  | first :: items =>
      rw [Value.depthOfItems] at within
      have goesOn : (after found (.array done :: frames)).step .comma =
        some (Reading.value (.array (found :: done) :: frames)) := rfl
      rw [Value.itemTokens, List.cons_append, run_cons goesOn, List.append_assoc,
        run_tokens first (.array (found :: done) :: frames) (by rw [List.length_cons]; omega),
        run_itemTokens items first (found :: done) frames (by omega), List.reverse_cons,
        List.append_assoc]
      rfl

theorem run_entryTokens (entries : List (String × Value)) (found : Value)
    (done : List (String × Value)) (label : String) (frames : List Frame)
    (within : Value.depthOfEntries entries + (frames.length + 1) ≤ nestingLimit)
    (rest : List Token) :
    (after found (.object done label :: frames)).run
        (Value.entryTokens entries ++ .objectClose :: rest) =
      (after (.object (((label, found) :: done).reverse ++ entries)) frames).run rest := by
  match entries with
  | [] =>
      rw [Value.entryTokens, List.append_nil]
      rfl
  | (next, first) :: entries =>
      rw [Value.depthOfEntries] at within
      have goesOn : (after found (.object done label :: frames)).step .comma =
        some (key ((label, found) :: done) frames) := rfl
      have labelled : (key ((label, found) :: done) frames).step (.string next) =
        some (colon ((label, found) :: done) next frames) := rfl
      have awaits : (colon ((label, found) :: done) next frames).step .colon =
        some (Reading.value (.object ((label, found) :: done) next :: frames)) := rfl
      rw [Value.entryTokens, List.cons_append, run_cons goesOn, List.cons_append,
        run_cons labelled, List.cons_append, run_cons awaits, List.append_assoc,
        run_tokens first (.object ((label, found) :: done) next :: frames)
          (by rw [List.length_cons]; omega),
        run_entryTokens entries first ((label, found) :: done) next frames (by omega),
        List.reverse_cons, List.append_assoc]
      rfl

end

end Reading

/-- A written value that does not nest too deep is read back, if its numbers are. -/
theorem Value.read?_pretty {value : Value} (survive : ∀ number ∈ value.numbers, number.Survives)
    (within : value.depth ≤ nestingLimit) : Value.read? value.pretty = some value := by
  have ends : Ends [] := by simp [Ends]
  have scans : Scans (value.write 0).toList value.tokens := by
    simpa using value.scans_write 0 survive ends .done
  have run := Reading.run_tokens value [] within []
  rw [List.append_nil] at run
  rw [read?, tokens?, pretty, scans.scanTokens le_rfl, Option.bind_some, ofTokens?, run]
  rfl

/-! ## What has been read -/

theorem Value.depthOfItems_le_iff {items : List Value} {bound : Nat} :
    depthOfItems items ≤ bound ↔ ∀ item ∈ items, item.depth ≤ bound := by
  induction items with
  | nil => simp [depthOfItems]
  | cons item items ih => rw [depthOfItems, max_le_iff, ih, List.forall_mem_cons]

theorem Value.depthOfEntries_le_iff {entries : List (String × Value)} {bound : Nat} :
    depthOfEntries entries ≤ bound ↔ ∀ entry ∈ entries, entry.2.depth ≤ bound := by
  induction entries with
  | nil => simp [depthOfEntries]
  | cons entry entries ih => rw [depthOfEntries, max_le_iff, ih, List.forall_mem_cons]

/-- The values in an array or object. -/
def Frame.values : Frame → List Value
  | .array items => items
  | .object entries _ => entries.map Prod.snd

/-- Nothing inside the open arrays and objects nests too deep. -/
def Frames.Within : List Frame → Prop
  | [] => True
  | frame :: rest =>
      (rest.length < nestingLimit ∧
        ∀ value ∈ frame.values, value.depth + (rest.length + 1) ≤ nestingLimit) ∧ Within rest

namespace Reading

/-- Nothing that has been read so far nests too deep. -/
def Within : Reading → Prop
  | .value frames => Frames.Within frames
  | .item frames => Frames.Within (.array [] :: frames)
  | .entry frames => Frames.Within (.object [] "" :: frames)
  | .key entries frames => Frames.Within (.object entries "" :: frames)
  | .colon entries label frames => Frames.Within (.object entries label :: frames)
  | .after found frames => found.depth + frames.length ≤ nestingLimit ∧ Frames.Within frames

theorem length_le_of_within {frames : List Frame} (within : Frames.Within frames) :
    frames.length ≤ nestingLimit := by
  cases frames with
  | nil => exact Nat.zero_le _
  | cons frame rest => exact within.1.1

theorem within_readValue {frames : List Frame} {token : Token} {next : Reading}
    (within : Frames.Within frames)
    (read : readValue frames token = some next) : next.Within := by
  unfold readValue at read
  split at read
  case h_1 =>
    split at read
    case isTrue room =>
      obtain rfl := Option.some.inj read
      exact ⟨⟨room, by simp [Frame.values]⟩, within⟩
    case isFalse => cases read
  case h_2 =>
    split at read
    case isTrue room =>
      obtain rfl := Option.some.inj read
      exact ⟨⟨room, by simp [Frame.values]⟩, within⟩
    case isFalse => cases read
  case h_7 => cases read
  all_goals
    obtain rfl := Option.some.inj read
    exact ⟨by simpa [Value.depth] using length_le_of_within within, within⟩

/-- A token does not let anything nest too deep. -/
theorem within_step {reading next : Reading} {token : Token} (within : reading.Within)
    (step : reading.step token = some next) : next.Within := by
  unfold Reading.step at step
  split at step
  case h_1 => exact within_readValue within step
  case h_2 =>
    obtain rfl := Option.some.inj step
    obtain ⟨⟨room, -⟩, within⟩ := within
    exact ⟨by simp [Value.depth, Value.depthOfItems]; omega, within⟩
  case h_3 => exact within_readValue within step
  case h_4 =>
    obtain rfl := Option.some.inj step
    obtain ⟨⟨room, -⟩, within⟩ := within
    exact ⟨by simp [Value.depth, Value.depthOfEntries]; omega, within⟩
  case h_5 | h_6 | h_7 =>
    obtain rfl := Option.some.inj step
    exact within
  case h_8 found items frames =>
    obtain rfl := Option.some.inj step
    obtain ⟨here, ⟨room, inside⟩, within⟩ := within
    exact ⟨⟨room, List.forall_mem_cons.mpr ⟨by simpa using here, inside⟩⟩, within⟩
  case h_9 found items frames =>
    obtain rfl := Option.some.inj step
    obtain ⟨here, ⟨room, inside⟩, within⟩ := within
    have each : ∀ item ∈ (found :: items).reverse,
        item.depth ≤ nestingLimit - (frames.length + 1) := by
      intro item membership
      rcases List.mem_cons.mp (List.mem_reverse.mp membership) with rfl | earlier
      · rw [List.length_cons] at here
        omega
      · have := inside item earlier
        omega
    have bound := Value.depthOfItems_le_iff.mpr each
    exact ⟨by rw [Value.depth]; omega, within⟩
  case h_10 found entries label frames =>
    obtain rfl := Option.some.inj step
    obtain ⟨here, ⟨room, inside⟩, within⟩ := within
    exact ⟨⟨room, List.forall_mem_cons.mpr ⟨by simpa using here, inside⟩⟩, within⟩
  case h_11 found entries label frames =>
    obtain rfl := Option.some.inj step
    obtain ⟨here, ⟨room, inside⟩, within⟩ := within
    have each : ∀ entry ∈ ((label, found) :: entries).reverse,
        entry.2.depth ≤ nestingLimit - (frames.length + 1) := by
      intro entry membership
      rcases List.mem_cons.mp (List.mem_reverse.mp membership) with rfl | earlier
      · rw [List.length_cons] at here
        dsimp only
        omega
      · have := inside entry.2 (List.mem_map_of_mem earlier)
        omega
    have bound := Value.depthOfEntries_le_iff.mpr each
    exact ⟨by rw [Value.depth]; omega, within⟩
  case h_12 => cases step

/-- A property that every token keeps is kept by all of them. -/
theorem run_induction {holds : Reading → Prop}
    (keeps : ∀ {reading next token}, holds reading → reading.step token = some next → holds next)
    {reading last : Reading} {tokens : List Token} (start : holds reading)
    (run : reading.run tokens = some last) : holds last := by
  induction tokens generalizing reading with
  | nil => exact Option.some.inj run ▸ start
  | cons token tokens ih =>
      rw [Reading.run] at run
      split at run
      case h_1 next step => exact ih (keeps start step) run
      case h_2 => cases run

/-- A finished value stands in an array or object, or is one. -/
def Nests : Reading → Prop
  | .value frames => frames ≠ []
  | .after found frames => frames ≠ [] ∨ found.depth ≠ 0
  | _ => True

theorem nests_readValue {frames : List Frame} {token : Token} {next : Reading}
    (nests : frames ≠ []) (read : readValue frames token = some next) : next.Nests := by
  unfold readValue at read
  split at read
  case h_1 | h_2 =>
    split at read
    · obtain rfl := Option.some.inj read
      trivial
    · cases read
  case h_7 => cases read
  all_goals
    obtain rfl := Option.some.inj read
    exact .inl nests

theorem nests_step {reading next : Reading} {token : Token} (nests : reading.Nests)
    (step : reading.step token = some next) : next.Nests := by
  unfold Reading.step at step
  split at step
  case h_1 => exact nests_readValue nests step
  case h_3 => exact nests_readValue (List.cons_ne_nil _ _) step
  case h_2 | h_4 | h_9 | h_11 =>
    obtain rfl := Option.some.inj step
    exact .inr (by simp [Value.depth])
  case h_12 => cases step
  all_goals
    obtain rfl := Option.some.inj step
    first | trivial | exact List.cons_ne_nil _ _

end Reading

theorem Value.ofTokens?_eq_some {tokens : List Token} {value : Value} :
    ofTokens? tokens = some value ↔
      (Reading.value []).run tokens = some (.after value []) := by
  rw [ofTokens?]
  split
  case h_1 found run => rw [run]; simp
  case h_2 run =>
    simp only [reduceCtorEq, false_iff]
    exact run value

/-- What has been read does not nest too deep. -/
theorem Value.depth_le_of_read {text : String} {value : Value}
    (read : Value.read? text = some value) : value.depth ≤ nestingLimit := by
  obtain ⟨tokens, -, found⟩ := Option.bind_eq_some_iff.mp read
  have start : (Reading.value []).Within := trivial
  exact (Reading.run_induction Reading.within_step start (ofTokens?_eq_some.mp found)).1

/-- Nothing follows a finished value that stands in no array or object. -/
theorem Reading.run_after_nil {found : Value} {tokens : List Token} {last : Reading}
    (run : (after found []).run tokens = some last) : tokens = [] ∧ last = after found [] := by
  cases tokens with
  | nil => exact ⟨rfl, (Option.some.inj run).symm⟩
  | cons token tokens => cases token <;> cases run

/-- The tokens of a number are that number. -/
theorem Value.tokens_of_number {tokens : List Token} {number : Number}
    (found : ofTokens? tokens = some (.number number)) : tokens = [.number number] := by
  rw [ofTokens?_eq_some] at found
  have opened {next : Reading} {rest : List Token} (nests : next.Nests)
      (run : next.run rest = some (.after (.number number) [])) : False := by
    rcases Reading.run_induction Reading.nests_step nests run with inside | isDeep
    · exact inside rfl
    · exact isDeep rfl
  cases tokens with
  | nil => cases found
  | cons token rest =>
      cases token with
      | arrayOpen => exact (@opened (.item []) rest trivial found).elim
      | objectOpen => exact (@opened (.entry []) rest trivial found).elim
      | arrayClose | objectClose | comma | colon => cases found
      | null | bool truth | string text =>
          obtain ⟨-, same⟩ := Reading.run_after_nil found
          cases same
      | number other =>
          obtain ⟨rfl, same⟩ := Reading.run_after_nil found
          cases same
          rfl

/-- A number that reads back on its own survives in a document. -/
theorem Number.survives_of_read {number : Number}
    (read : Value.read? number.write = some (.number number)) : number.Survives := by
  intro rest tokens ends scans
  obtain ⟨written, scanned, found⟩ := Option.bind_eq_some_iff.mp read
  obtain rfl := Value.tokens_of_number found
  exact scans.append_number scanned ends

end ComponentModel.Json
