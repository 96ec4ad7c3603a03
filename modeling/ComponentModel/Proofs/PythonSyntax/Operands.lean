import ComponentModel.Proofs.NumberTexts
import ComponentModel.Proofs.PythonSyntax.Conditionals

/-!
# Operands of conditionals in Python

Which texts are operands of a conditional: numbers, variables and names of constants, operands with
operators between them, and calls and groups, whatever stands inside their brackets as long as it
has brackets in pairs. None of these texts has a character in it that only placeholders of templates
start with, so a conditional can be filled with one after the other.
-/

namespace ComponentModel.PythonSyntax.Conditional

open Analysis (AnalysedModel)
open Code (Profile countText)
open Decimal (Numeral)

/-! ## Texts without placeholders -/

/-- Whether the tokens of a text have a form, and no placeholder starts in it. -/
structure Writes (text : String) (form : List Token → Prop) : Prop where
  hasForm : form (tokens text)
  noPlaceholder : 'I' ∉ text.toList

instance (text : String) (form : List Token → Prop) [DecidablePred form] :
    Decidable (Writes text form) :=
  decidable_of_iff (form (tokens text) ∧ 'I' ∉ text.toList)
    ⟨fun ⟨hasForm, noPlaceholder⟩ => ⟨hasForm, noPlaceholder⟩,
      fun ⟨hasForm, noPlaceholder⟩ => ⟨hasForm, noPlaceholder⟩⟩

namespace Writes

variable {left right symbol name text : String} {form other : List Token → Prop}

theorem mono (writes : Writes text form) (weaker : ∀ tokens, form tokens → other tokens) :
    Writes text other :=
  ⟨weaker _ writes.hasForm, writes.noPlaceholder⟩

theorem fitsInside (writes : Writes text IsOperand) : Writes text FitsInside :=
  writes.mono fun _ isOperand => isOperand.closed.fitsInside

/-- Operands with an operator between them are an operand. -/
theorem between (writes : Writes left IsOperand)
    (isSymbol : symbol ∈ ["+", "-", "*", "/", "**"]) (writesRight : Writes right IsOperand) :
    Writes (left ++ symbol ++ right) IsOperand := by
  have checked : ∀ symbol ∈ ["+", "-", "*", "/", "**"],
      IsSymbol symbol ∧ Writes symbol IsOperand := by
    decide
  obtain ⟨separates, writesSymbol⟩ := checked symbol isSymbol
  refine ⟨⟨?_, ?_⟩, ?_⟩
  · simp [tokens_between left separates, writes.hasForm.nonempty]
  · rw [tokens_between left separates]
    exact (writes.hasForm.closed.append writesSymbol.hasForm.closed).append
      writesRight.hasForm.closed
  · simp [writes.noPlaceholder, writesSymbol.noPlaceholder, writesRight.noPlaceholder]

theorem comma (writes : Writes left FitsInside) (writesRight : Writes right FitsInside) :
    Writes (left ++ ", " ++ right) FitsInside := by
  have writesComma : Writes ", " IsOperand := by decide
  refine ⟨?_, ?_⟩
  · rw [tokens_between left (by decide)]
    exact (writes.hasForm.append writesComma.fitsInside.hasForm).append writesRight.hasForm
  · simp [writes.noPlaceholder, writesRight.noPlaceholder]

/-- What may stand inside brackets is an operand in brackets, also behind a name. -/
theorem bracketed (writesName : Writes name IsClosed) (writes : Writes text FitsInside)
    (opening closing : String) (opens : opening ∈ ["(", "["]) (closes : closing ∈ [")", "]"]) :
    Writes (name ++ opening ++ text ++ closing) IsOperand := by
  obtain ⟨opener, isOpener, separates, openingSpelled, noPlaceholder⟩ : ∃ opener ∈ ['(', '['],
      IsSymbol opening ∧ tokens opening = [.mark opener] ∧ 'I' ∉ opening.toList := by
    simp only [List.mem_cons, List.not_mem_nil, or_false] at opens
    rcases opens with rfl | rfl
    · exact ⟨'(', by decide⟩
    · exact ⟨'[', by decide⟩
  obtain ⟨closer, isCloser, separatesEnd, closingSpelled, noEnd⟩ : ∃ closer ∈ [')', ']'],
      IsSymbol closing ∧ tokens closing = [.mark closer] ∧ 'I' ∉ closing.toList := by
    simp only [List.mem_cons, List.not_mem_nil, or_false] at closes
    rcases closes with rfl | rfl
    · exact ⟨')', by decide⟩
    · exact ⟨']', by decide⟩
  have isTokens : tokens (name ++ opening ++ text ++ closing) =
      tokens name ++ .mark opener :: (tokens text ++ [.mark closer]) := by
    have behind := tokens_between (name ++ opening ++ text) separatesEnd ""
    rw [String.append_empty, tokens_between name separates, openingSpelled, closingSpelled]
      at behind
    simpa [tokens, cut, wordTokens] using behind
  refine ⟨⟨?_, ?_⟩, ?_⟩
  · simp [isTokens]
  · rw [isTokens]
    exact writesName.hasForm.append (writes.hasForm.bracketed isOpener isCloser)
  · simp [writesName.noPlaceholder, noPlaceholder, writes.noPlaceholder, noEnd]

theorem parenthesized (writes : Writes text FitsInside) :
    Writes (Code.parenthesized text) IsOperand := by
  have writesNothing : Writes "" IsClosed := by decide
  simpa [Code.parenthesized] using
    writesNothing.bracketed writes "(" ")" (by decide) (by decide)

theorem call (writesName : Writes name IsClosed) (writes : Writes text FitsInside) :
    Writes (Code.call name [text]) IsOperand := by
  simpa [Code.call, String.append_assoc] using
    writesName.bracketed writes "(" ")" (by decide) (by decide)

theorem callOfTwo (writesName : Writes name IsClosed) (writes : Writes left FitsInside)
    (writesRight : Writes right FitsInside) :
    Writes (Code.call name [left, right]) IsOperand := by
  simpa [Code.call, String.append_assoc] using
    writesName.bracketed (writes.comma writesRight) "(" ")" (by decide) (by decide)

theorem negative (writes : Writes text IsOperand) : Writes ("-" ++ text) IsOperand := by
  have isTokens : tokens ("-" ++ text) = .mark '-' :: tokens text := by
    simp only [tokens, String.toList_append]
    rfl
  refine ⟨⟨by simp [isTokens], ?_⟩, by simp [writes.noPlaceholder]⟩
  rw [isTokens]
  exact writes.hasForm.closed

end Writes

/-! ## Numbers and variables -/

/-- Whether a character may stand in a number. -/
def IsNumeric (character : Char) : Prop :=
  character.isDigit ∨ character = '.' ∨ Decimal.isMark character ∨ Decimal.isSign character

instance (character : Char) : Decidable (IsNumeric character) :=
  inferInstanceAs (Decidable (_ ∨ _))

theorem writes_of_numeric {text : String} (nonempty : text.toList ≠ [])
    (numeric : ∀ character ∈ text.toList, IsNumeric character) : Writes text IsOperand := by
  have strange : " I()[]fl".toList.all (¬IsNumeric ·) := by decide
  have plain : ∀ character ∈ text.toList, character ∉ " I()[]fl".toList := by
    intro character member isStrange
    have notNumeric := List.all_eq_true.mp strange character isStrange
    exact of_decide_eq_true notNumeric (numeric character member)
  refine ⟨⟨tokens_ne_nil ?_, isClosed_cut fun character member => ?_⟩, fun member => ?_⟩
  · obtain ⟨first, rest, spelled⟩ := List.exists_cons_of_ne_nil nonempty
    have noBlank : first ≠ ' ' := by
      rintro rfl
      exact plain ' ' (by simp [spelled]) (by decide)
    simpa [spelled] using noBlank
  · have isPlain := plain character (by simpa using member)
    exact fun isStrange => isPlain (List.mem_cons_of_mem _ (List.mem_cons_of_mem _ isStrange))
  · exact plain 'I' member (by decide)

theorem writes_number {written : String} (numeral : (Numeral.ofChars? written.toList).isSome) :
    Writes (Code.doubleText written) IsOperand := by
  have unsignedDouble (written : String) (unsigned : (Numeral.ofUnsigned? written.toList).isSome) :
      (Code.doubleText written).toList ≠ [] ∧
        ∀ character ∈ (Code.doubleText written).toList, IsNumeric character := by
    obtain ⟨size, read⟩ := Option.isSome_iff_exists.mp
      (Decimal.literalValue_doubleText unsigned (K := ℚ)).1
    refine ⟨fun isEmpty => ?_, fun character => Numeral.mem_of_ofUnsigned? read⟩
    rw [isEmpty] at read
    cases read
  obtain ⟨numeral, read⟩ := Option.isSome_iff_exists.mp numeral
  obtain readSize | ⟨sign, rest, size, isSign, spelled, readSize, -⟩ :=
    Numeral.exists_unsigned read
  · obtain ⟨nonempty, numeric⟩ := unsignedDouble written (Option.isSome_of_mem readSize)
    exact writes_of_numeric nonempty numeric
  · obtain ⟨-, numeric⟩ := unsignedDouble (String.ofList rest) (by simp [readSize])
    have isDouble := Decimal.doubleText_cons isSign spelled
    refine writes_of_numeric (by simp [isDouble]) ?_
    rw [isDouble, List.forall_mem_cons]
    exact ⟨.inr (.inr (.inr isSign)), numeric⟩

theorem writes_element (array : String) (writesArray : Writes array IsClosed) (place : Nat) :
    Writes (array ++ "[" ++ countText place ++ "]") IsOperand := by
  have isCount : (countText place).toList = Nat.toDigits 10 place := by
    simp [countText, Decimal.digitText]
  have writes : Writes (countText place) IsOperand := by
    refine writes_of_numeric (isCount ▸ Nat.toDigits_ne_nil) fun character member => ?_
    rw [isCount] at member
    exact .inl (Nat.isDigit_of_mem_toDigits (by decide) (by decide) member)
  exact writesArray.bracketed writes.fitsInside "[" "]" (by decide) (by decide)

theorem writes_reference (analysed : AnalysedModel) (rate : Bool) (declaration : Nat) :
    Writes ((Profile.ofKind .python).referenceText analysed rate declaration) IsOperand := by
  rw [Profile.referenceText]
  split
  case h_1 type place _ =>
    cases type with
    | integrationVariable =>
      have writes : Writes "voi" IsOperand := by decide
      exact writes
    | state =>
      cases rate with
      | true => exact writes_element "rates" (by decide) place
      | false => exact writes_element "states" (by decide) place
    | constant | computedConstant | algebraic =>
      exact writes_element "variables" (by decide) place
  case h_2 =>
    have writes : Writes "nan" IsOperand := by decide
    exact writes

end ComponentModel.PythonSyntax.Conditional
