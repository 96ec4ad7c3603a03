import Mathlib.Data.List.Induction
import Mathlib.Data.List.TakeDrop
import Mathlib.Data.List.TakeWhile
import ComponentModel.Proofs.Json.Entries
import ComponentModel.Proofs.Markup.Content

/-!
# Scanning written markup

Written content is cut into its pieces again: a gap at the next bracket, a start tag at the first
bracket outside quotes and into its name and its attributes, an end tag at its bracket.
-/

namespace ComponentModel.Markup

/-! ## Characters of names -/

theorem IsPlainName.isSeparator_eq {name : String} (plain : IsPlainName name) {character : Char}
    (member : character ∈ name.toList) : isSeparator character = false := by
  have unmarked := plain.2 character member
  simp only [isMark, Bool.or_eq_false_iff] at unmarked
  exact unmarked.1

/-- A name has a first character, which is no blank. -/
theorem IsPlainName.exists_first {name : String} (plain : IsPlainName name) :
    ∃ first more, name.toList = first :: more ∧ isSeparator first = false := by
  obtain ⟨first, more, spelled⟩ : ∃ first more, name.toList = first :: more :=
    List.exists_cons_of_ne_nil (by simpa using plain.1)
  exact ⟨first, more, spelled, plain.isSeparator_eq (by simp [spelled])⟩

theorem IsPlainName.ne_mark {name : String} (plain : IsPlainName name) {character mark : Char}
    (member : character ∈ name.toList) (marks : isMark mark = true) : character ≠ mark := by
  rintro rfl
  exact absurd marks (by simp [plain.2 character member])

/-- A list is split at the first entry that fails, if all before it pass. -/
theorem span_append {passes : Char → Bool} {characters rest : List Char}
    (goes : ∀ character ∈ characters, passes character = true)
    (halts : ∀ next ∈ rest.head?, passes next = false) :
    (characters ++ rest).span passes = (characters, rest) := by
  have front : rest.takeWhile passes = [] ∧ rest.dropWhile passes = rest := by
    cases rest with
    | nil => exact ⟨rfl, rfl⟩
    | cons next rest => simp [halts next (by simp)]
  rw [List.span_eq_takeWhile_dropWhile, List.takeWhile_append_of_pos goes,
    List.dropWhile_append_of_pos goes, front.1, front.2, List.append_nil]

/-! ## The end of a tag -/

/-- A tag does not end inside these characters, and no quotes are open behind them. -/
def Passes (characters : List Char) : Prop :=
  ∀ rest, splitTag none (characters ++ rest) =
    (splitTag none rest).map fun split => (characters ++ split.1, split.2)

theorem Passes.nil : Passes [] := fun rest => by simp

theorem Passes.append {first second : List Char} (passesFirst : Passes first)
    (passesSecond : Passes second) : Passes (first ++ second) := fun rest => by
  rw [List.append_assoc, passesFirst, passesSecond, Option.map_map]
  simp [Function.comp_def]

theorem Passes.flatMap {α : Type} {write : α → List Char} {entries : List α}
    (passes : ∀ entry ∈ entries, Passes (write entry)) : Passes (entries.flatMap write) := by
  induction entries with
  | nil => exact .nil
  | cons entry entries ih =>
      rw [List.forall_mem_cons] at passes
      exact passes.1.append (ih passes.2)

/-- A character that neither ends a tag nor opens quotes. -/
theorem passes_singleton {character : Char} (noEnd : character ≠ '>') (noQuote : character ≠ '"')
    (noApostrophe : character ≠ '\'') : Passes [character] := fun rest => by
  simp [splitTag, noEnd, noQuote, noApostrophe]

theorem IsPlainName.passes {name : String} (plain : IsPlainName name) : Passes name.toList := by
  rw [← List.flatMap_singleton' name.toList]
  exact .flatMap fun character member => passes_singleton (plain.ne_mark member rfl)
    (plain.ne_mark member rfl) (plain.ne_mark member rfl)

/-- Inside quotes, everything goes up to the closing quote. -/
theorem splitTag_quoted {value : List Char} (unquoted : '"' ∉ value) (rest : List Char) :
    splitTag (some '"') (value ++ '"' :: rest) =
      (splitTag none rest).map fun split => (value ++ '"' :: split.1, split.2) := by
  induction value with
  | nil => simp [splitTag]
  | cons character value ih =>
      rw [List.mem_cons, not_or] at unquoted
      obtain ⟨noQuote, unquoted⟩ := unquoted
      simp [splitTag, Ne.symm noQuote, ih unquoted, Function.comp_def]

theorem passes_quoted {value : List Char} (unquoted : '"' ∉ value) :
    Passes ('"' :: value ++ ['"']) := fun rest => by
  simp [splitTag, splitTag_quoted unquoted, Function.comp_def]

theorem passes_writeAttribute {entry : String × String} (plain : IsPlainName entry.1)
    (unquoted : '"' ∉ entry.2.toList) : Passes (writeAttribute entry) := by
  have blank : Passes [' '] := passes_singleton (by decide) (by decide) (by decide)
  have equals : Passes ['='] := passes_singleton (by decide) (by decide) (by decide)
  simpa [writeAttribute] using
    ((blank.append plain.passes).append equals).append (passes_quoted unquoted)

theorem Tag.passes (tag : Tag) : Passes tag.write :=
  tag.named.passes.append <| .flatMap fun entry member =>
    passes_writeAttribute (tag.attributesNamed entry member).1 (tag.unquoted entry member)

/-- A tag is cut off at the bracket behind it. -/
theorem Passes.splitTag_eq {content : List Char} (passes : Passes content) (rest : List Char) :
    splitTag none (content ++ '>' :: rest) = some (content, rest) := by
  rw [passes]
  simp [splitTag]

/-! ## Attributes -/

theorem splitAtMark_quote {value : List Char} (unquoted : '"' ∉ value) (rest : List Char) :
    splitAtMark ['"'] (value ++ '"' :: rest) = some (value, rest) := by
  induction value with
  | nil => simp [splitAtMark]
  | cons character value ih =>
      rw [List.mem_cons, not_or] at unquoted
      obtain ⟨noQuote, unquoted⟩ := unquoted
      simp [splitAtMark, noQuote, ih unquoted]

/-- A written attribute is read, whatever stands behind it. -/
theorem readAttribute_written {entry : String × String} (plain : IsPlainName entry.1)
    (unquoted : '"' ∉ entry.2.toList) (rest : List Char) :
    readAttribute (entry.1.toList ++ '=' :: '"' :: (entry.2.toList ++ '"' :: rest)) =
      some (entry, rest) := by
  obtain ⟨name, value⟩ := entry
  obtain ⟨first, more, spelled, -⟩ := plain.exists_first
  have goes : ∀ character ∈ more, (character != '=' && !isSeparator character) = true := by
    intro character member
    have inName : character ∈ name.toList := spelled ▸ List.mem_cons_of_mem first member
    have noEquals : character ≠ '=' := plain.ne_mark inName rfl
    simp [plain.isSeparator_eq inName, noEquals]
  have named : (more ++ '=' :: '"' :: (value.toList ++ '"' :: rest)).span _ =
      (more, '=' :: '"' :: (value.toList ++ '"' :: rest)) := span_append goes (by simp)
  have equals : isSeparator '=' = false := rfl
  have quote : isSeparator '"' = false := rfl
  simp only [readAttribute, spelled, List.cons_append, named]
  simp [equals, quote, splitAtMark_quote unquoted, ← spelled]

/-- One more attribute in front is read first. -/
theorem readAttributes_cons {entry : String × String} (plain : IsPlainName entry.1)
    (unquoted : '"' ∉ entry.2.toList) (steps : Nat) (rest : List Char) :
    readAttributes (steps + 1) (writeAttribute entry ++ rest) =
      (readAttributes steps rest).map fun entries => entry :: entries := by
  obtain ⟨first, more, spelled, visible⟩ := plain.exists_first
  have blank : isSeparator ' ' = true := rfl
  have read := readAttribute_written plain unquoted rest
  rw [spelled, List.cons_append] at read
  simp only [readAttributes, writeAttribute, spelled, List.cons_append, List.append_assoc,
    List.nil_append, List.dropWhile_cons_of_pos blank, visible, Bool.false_eq_true,
    not_false_eq_true, List.dropWhile_cons_of_neg, read, Option.bind_eq_bind, Option.bind_some]
  cases readAttributes steps rest <;> rfl

/-- Written attributes are read one after the other. Each takes more than one character. -/
theorem readAttributes_written {entries : List (String × String)}
    (named : ∀ entry ∈ entries, IsPlainName entry.1)
    (unquoted : ∀ entry ∈ entries, '"' ∉ entry.2.toList) {steps : Nat}
    (enough : (entries.flatMap writeAttribute).length ≤ steps) :
    readAttributes steps (entries.flatMap writeAttribute) = some entries := by
  induction entries generalizing steps with
  | nil => cases steps <;> rfl
  | cons entry entries ih =>
      rw [List.forall_mem_cons] at named unquoted
      rw [List.flatMap_cons, List.length_append] at enough
      have taken : 0 < (writeAttribute entry).length := by simp [writeAttribute]
      obtain ⟨steps, rfl⟩ : ∃ fewer, steps = fewer + 1 := ⟨steps - 1, by omega⟩
      rw [List.flatMap_cons, readAttributes_cons named.1 unquoted.1,
        ih named.2 unquoted.2 (by omega), Option.map_some]

theorem Tag.attributes?_written (tag : Tag) :
    attributes? (tag.attributes.flatMap writeAttribute) = some tag.attributes := by
  rw [attributes?, readAttributes_written
    (fun entry member => (tag.attributesNamed entry member).1) tag.unquoted (Nat.le_refl _)]
  simp [Json.eraseDups_of_nodup tag.distinct]

/-! ## Tags -/

/-- A tag starts with its name, and a blank or nothing is behind it. -/
theorem Tag.span_write (tag : Tag) :
    tag.write.span (fun character => !isSeparator character) =
      (tag.name.toList, tag.attributes.flatMap writeAttribute) := by
  refine span_append (fun character member => by simp [tag.named.isSeparator_eq member]) ?_
  have blank : isSeparator ' ' = true := rfl
  cases tag.attributes with
  | nil => simp
  | cons entry entries => simp [writeAttribute, blank]

/-- A tag ends with its name or with a quote. -/
theorem Tag.getLast?_write (tag : Tag) : tag.write.getLast? ≠ some '/' := by
  rw [Tag.write]
  rcases List.eq_nil_or_concat tag.attributes with none | ⟨others, last, split⟩
  · rw [none, List.flatMap_nil, List.append_nil]
    intro ends
    exact tag.named.ne_mark (List.mem_of_getLast? ends) rfl rfl
  · rw [split, List.concat_eq_append, List.flatMap_append, List.flatMap_singleton, writeAttribute,
      ← List.append_assoc, ← List.append_assoc, List.getLast?_concat]
    decide

theorem Tag.tagPiece_write (tag : Tag) :
    tagPiece tag.write = some (.opening tag.name tag.attributes) := by
  have noSlash : (tag.write.getLast? == some '/') = false := by simp [tag.getLast?_write]
  simp only [tagPiece, noSlash, Bool.false_eq_true, if_false, tag.span_write,
    tag.attributes?_written, Option.map_some, String.ofList_toList]

theorem Tag.tagPiece_write_slash (tag : Tag) :
    tagPiece (tag.write ++ ['/']) = some (.empty tag.name tag.attributes) := by
  simp only [tagPiece, List.getLast?_concat, beq_self_eq_true, if_true, List.dropLast_concat,
    tag.span_write, tag.attributes?_written, Option.map_some, String.ofList_toList]

theorem IsPlainName.endPiece_eq {name : String} (plain : IsPlainName name) :
    endPiece name.toList = .closing name := by
  have kept : name.toList.reverse.dropWhile isSeparator = name.toList.reverse := by
    rw [List.dropWhile_eq_self_iff]
    intro visible
    simp [plain.isSeparator_eq]
  simp [endPiece, kept, plain.1]

/-! ## Pieces -/

/-- The piece that a gap leaves, if it has any characters. -/
def Gap.pieces (gap : Gap) : List Piece :=
  if gap.text = "" then [] else [.segment (Text.trim gap.text)]

/-- The pieces of content. -/
def Content.pieces : Content → List Piece
  | .ends gap => gap.pieces
  | .empty gap tag rest => gap.pieces ++ .empty tag.name tag.attributes :: rest.pieces
  | .nested gap tag inner rest =>
      gap.pieces ++ .opening tag.name tag.attributes :: inner.pieces ++
        .closing tag.name :: rest.pieces

/-- The pieces of a list of characters, however many steps it takes to find them. -/
inductive Scans : List Char → List Piece → Prop where
  | done : Scans [] []
  | piece {first : Char} {more rest : List Char} {found : Option Piece} {pieces : List Piece}
      (scanned : scanPiece (first :: more) = some (found, rest))
      (shorter : rest.length ≤ more.length) (behind : Scans rest pieces) :
      Scans (first :: more) (found.toList ++ pieces)

/-- Behind a bracket, a name starts a tag. -/
theorem Tag.scanPiece_eq (tag : Tag) (rest : List Char) :
    scanPiece ('<' :: (tag.write ++ rest)) =
      (splitTag none (tag.write ++ rest)).bind fun split =>
        (tagPiece split.1).bind fun piece => some (some piece, split.2) := by
  obtain ⟨first, more, spelled, -⟩ := tag.named.exists_first
  have inName : first ∈ tag.name.toList := by simp [spelled]
  have noBang : first ≠ '!' := tag.named.ne_mark inName rfl
  have noQuestion : first ≠ '?' := tag.named.ne_mark inName rfl
  have noSlash : first ≠ '/' := tag.named.ne_mark inName rfl
  rw [Tag.write, spelled]
  simp only [List.cons_append]
  rw [scanPiece]
  · rfl
  all_goals simp_all

namespace Scans

variable {characters rest : List Char} {pieces : List Piece}

theorem scanPieces_eq (scans : Scans characters pieces) {steps : Nat}
    (enough : characters.length ≤ steps) : scanPieces steps characters = some pieces := by
  induction scans generalizing steps with
  | done => cases steps <;> rfl
  | piece scanned shorter _ ih =>
      rw [List.length_cons] at enough
      obtain ⟨steps, rfl⟩ : ∃ fewer, steps = fewer + 1 := ⟨steps - 1, by omega⟩
      simp [scanPieces, scanned, ih (by omega : _ ≤ steps)]

/-- A start tag in front. -/
theorem opening (tag : Tag) (behind : Scans rest pieces) :
    Scans ('<' :: tag.write ++ '>' :: rest)
      (.opening tag.name tag.attributes :: pieces) := by
  have scanned : scanPiece ('<' :: (tag.write ++ '>' :: rest)) =
      some (some (.opening tag.name tag.attributes), rest) := by
    rw [tag.scanPiece_eq, tag.passes.splitTag_eq, Option.bind_some, tag.tagPiece_write]
    rfl
  exact .piece scanned (by simp; omega) behind

/-- A tag of an element without content in front. -/
theorem empty (tag : Tag) (behind : Scans rest pieces) :
    Scans ('<' :: tag.write ++ '/' :: '>' :: rest)
      (.empty tag.name tag.attributes :: pieces) := by
  have slash : Passes ['/'] := passes_singleton (by decide) (by decide) (by decide)
  have scanned : scanPiece ('<' :: (tag.write ++ '/' :: '>' :: rest)) =
      some (some (.empty tag.name tag.attributes), rest) := by
    rw [tag.scanPiece_eq, List.append_cons tag.write '/', (tag.passes.append slash).splitTag_eq,
      Option.bind_some, tag.tagPiece_write_slash]
    rfl
  exact .piece scanned (by simp; omega) behind

/-- An end tag in front. -/
theorem closing {name : String} (plain : IsPlainName name) (behind : Scans rest pieces) :
    Scans ('<' :: '/' :: name.toList ++ '>' :: rest) (.closing name :: pieces) := by
  have scanned : scanPiece ('<' :: '/' :: (name.toList ++ '>' :: rest)) =
      some (some (.closing name), rest) := by
    rw [scanPiece, plain.passes.splitTag_eq, Option.map_some, plain.endPiece_eq]
  exact .piece scanned (by simp; omega) behind

/-- A gap in front of a bracket, or at the end. -/
theorem gap (gap : Gap) (halts : ∀ next ∈ rest.head?, next = '<') (behind : Scans rest pieces) :
    Scans (gap.text.toList ++ rest) (gap.pieces ++ pieces) := by
  by_cases nothing : gap.text = ""
  · simpa [Gap.pieces, nothing] using behind
  obtain ⟨first, more, spelled⟩ : ∃ first more, gap.text.toList = first :: more :=
    List.exists_cons_of_ne_nil (by simpa using nothing)
  have plain : endsSegment first = false := gap.plain first (by simp [spelled])
  have noBracket : first ≠ '<' := by rintro rfl; cases plain
  have noReference : first ≠ '&' := by rintro rfl; cases plain
  have whole : (gap.text.toList ++ rest).span (fun character => !endsSegment character) =
      (gap.text.toList, rest) := by
    refine span_append (fun character member => by simp [gap.plain character member]) ?_
    intro next isNext
    simp [halts next isNext, endsSegment]
  have scanned : scanPiece (first :: (more ++ rest)) =
      some (some (.segment (Text.trim gap.text)), rest) := by
    rw [spelled, List.cons_append] at whole
    rw [scanPiece, whole, ← spelled]
    · rfl
    all_goals simp_all
  have segment : gap.pieces = (some (Piece.segment (Text.trim gap.text))).toList := by
    simp [Gap.pieces, nothing]
  rw [segment, spelled]
  exact .piece scanned (by simp) behind

end Scans

/-- Written content is cut into its pieces, in front of a bracket or at the end. -/
theorem Content.scans (content : Content) {rest : List Char} {pieces : List Piece}
    (halts : ∀ next ∈ rest.head?, next = '<') (behind : Scans rest pieces) :
    Scans (content.write ++ rest) (content.pieces ++ pieces) := by
  induction content generalizing rest pieces with
  | ends gap => exact .gap gap halts behind
  | empty gap tag others ih =>
      simpa [Content.write, Content.pieces] using
        Scans.gap gap (by simp) (Scans.empty tag (ih halts behind))
  | nested gap tag inner others ihInner ih =>
      have closed := Scans.closing tag.named (ih halts behind)
      simpa [Content.write, Content.pieces] using
        Scans.gap gap (by simp) (Scans.opening tag (ihInner (by simp) closed))

/-- A written document is cut into the pieces of its content. -/
theorem Content.pieces?_document (content : Content) :
    pieces? content.document = some content.pieces := by
  have scans : Scans (content.write ++ []) (content.pieces ++ []) :=
    content.scans (by simp) .done
  rw [List.append_nil, List.append_nil] at scans
  rw [pieces?, Content.document, String.toList_ofList]
  exact scans.scanPieces_eq (Nat.le_refl _)

end ComponentModel.Markup
