import ComponentModel.Model.Basic
import ComponentModel.Proofs.NumberTexts
import Mathlib.Data.Rat.Cast.CharZero

/-!
# Floating constants in C

A floating constant with a point consists of digits on both sides of the point, on one of which
there may be none, and of an exponent, which may be missing. The literal of an initial value is
written as such a constant of the same number behind its sign, if it has one, unless it is the name of
an infinite or undefined value.
-/

namespace ComponentModel.CSyntax

open Decimal (AreDigits NamesValue Numeral Spelling digitValue behindSign digitsValue isSign readExponent
  spanDigits)

/-! ## The grammar -/

/-- The digits of an exponent, behind a sign or not, with their number. -/
inductive Exponential : List Char → Int → Prop
  | plain {digits : List Char} (written : digits ≠ []) (areDigits : AreDigits digits) :
      Exponential digits (digitsValue (digits.map digitValue))
  | plus {digits : List Char} (written : digits ≠ []) (areDigits : AreDigits digits) :
      Exponential ('+' :: digits) (digitsValue (digits.map digitValue))
  | minus {digits : List Char} (written : digits ≠ []) (areDigits : AreDigits digits) :
      Exponential ('-' :: digits) (-digitsValue (digits.map digitValue))

/-- The exponent of a constant, which may be missing. -/
inductive ExponentPart : List Char → Int → Prop
  | none : ExponentPart [] 0
  | lower {characters : List Char} {exponent : Int} (behind : Exponential characters exponent) :
      ExponentPart ('e' :: characters) exponent
  | upper {characters : List Char} {exponent : Int} (behind : Exponential characters exponent) :
      ExponentPart ('E' :: characters) exponent

/-- A decimal floating constant with a point, and its number. -/
inductive FloatingConstant : List Char → ℚ → Prop
  | pointed {whole fraction rest : List Char} {exponent : Int}
      (written : whole ≠ [] ∨ fraction ≠ []) (areWhole : AreDigits whole)
      (areFraction : AreDigits fraction) (part : ExponentPart rest exponent) :
      FloatingConstant (whole ++ '.' :: (fraction ++ rest))
        (digitsValue ((whole ++ fraction).map digitValue) * 10 ^ (exponent - fraction.length))

/-- A floating constant behind a sign or without one. -/
inductive SignedConstant : List Char → ℚ → Prop
  | plain {characters : List Char} {number : ℚ} (constant : FloatingConstant characters number) :
      SignedConstant characters number
  | plus {characters : List Char} {number : ℚ} (constant : FloatingConstant characters number) :
      SignedConstant ('+' :: characters) number
  | minus {characters : List Char} {number : ℚ} (constant : FloatingConstant characters number) :
      SignedConstant ('-' :: characters) (-number)

variable {characters rest : List Char} {number : ℚ} {exponent : Int} {numeral : Numeral}

/-! ## Constants are numerals with a point -/

theorem spanDigits_all {digits : List Char} (areDigits : AreDigits digits) :
    spanDigits digits = (digits.map digitValue, []) := by
  have spanned : spanDigits (digits ++ []) = (digits.map digitValue, []) :=
    Decimal.spanDigits_append areDigits (by simp)
  rwa [List.append_nil] at spanned

theorem readExponent_exponential (behind : Exponential characters exponent) {mark : Char}
    (marked : mark = 'e' ∨ mark = 'E') :
    readExponent (mark :: characters) = some (some exponent, []) := by
  have isMark : (mark == 'e' || mark == 'E') = true := by simpa using marked
  simp only [readExponent, isMark, if_true]
  cases behind with
  | @plain digits written areDigits =>
      obtain ⟨first, digits, rfl⟩ := List.exists_cons_of_ne_nil written
      have isDigit := areDigits first List.mem_cons_self
      have notPlus : first ≠ '+' := by
        rintro rfl
        exact absurd isDigit (by decide)
      have notMinus : first ≠ '-' := by
        rintro rfl
        exact absurd isDigit (by decide)
      simp [spanDigits_all areDigits, notPlus, notMinus]
  | @plus digits written areDigits =>
      obtain ⟨first, digits, rfl⟩ := List.exists_cons_of_ne_nil written
      simp [spanDigits_all areDigits]
  | @minus digits written areDigits =>
      obtain ⟨first, digits, rfl⟩ := List.exists_cons_of_ne_nil written
      simp [spanDigits_all areDigits]

theorem readExponent_of_part (part : ExponentPart rest exponent) :
    ∃ read, readExponent rest = some (read, []) ∧ read.getD 0 = exponent := by
  cases part with
  | none => exact ⟨none, rfl, rfl⟩
  | lower behind => exact ⟨some exponent, readExponent_exponential behind (.inl rfl), rfl⟩
  | upper behind => exact ⟨some exponent, readExponent_exponential behind (.inr rfl), rfl⟩

theorem exists_of_spanDigits {digits : List Nat}
    (spanned : spanDigits characters = (digits, [])) :
    AreDigits characters ∧ digits = characters.map digitValue := by
  obtain ⟨front, rest, rfl, areDigits, stops⟩ := Decimal.exists_digits characters
  rw [Decimal.spanDigits_append areDigits stops] at spanned
  obtain ⟨rfl, rfl⟩ := Prod.mk.inj spanned
  rw [List.append_nil]
  exact ⟨areDigits, rfl⟩

theorem exponential_of_spanDigits {digits : List Nat} {negative : Bool}
    (signed : (match characters with
      | '+' :: rest => (false, rest)
      | '-' :: rest => (true, rest)
      | rest => (false, rest)) = (negative, rest))
    (spanned : spanDigits rest = (digits, [])) (written : digits ≠ []) :
    Exponential characters (if negative then -digitsValue digits else digitsValue digits) := by
  obtain ⟨areDigits, rfl⟩ := exists_of_spanDigits spanned
  have nonempty : rest ≠ [] := by
    rintro rfl
    exact written rfl
  split at signed
  all_goals
    obtain ⟨rfl, rfl⟩ := Prod.mk.inj signed
  case h_1 => exact .plus nonempty areDigits
  case h_2 => exact .minus nonempty areDigits
  case h_3 => exact .plain nonempty areDigits

theorem part_of_readExponent {read : Option Int} (isRead : readExponent rest = some (read, [])) :
    ExponentPart rest (read.getD 0) := by
  cases rest with
  | nil =>
      obtain rfl : none = read := by simpa [readExponent] using isRead
      exact .none
  | cons mark behind =>
      simp only [readExponent] at isRead
      split at isRead
      case isFalse => simp at isRead
      case isTrue marked =>
        split at isRead
        case h_1 => cases isRead
        case h_2 digits behind written found =>
          obtain ⟨rfl, rfl⟩ := Prod.mk.inj (Option.some.inj isRead)
          have exponential := exponential_of_spanDigits rfl found (by simpa using written)
          obtain rfl | rfl : mark = 'e' ∨ mark = 'E' := by simpa using marked
          · exact .lower exponential
          · exact .upper exponential

theorem floatingConstant_iff : FloatingConstant characters number ↔
    '.' ∈ characters ∧ ∃ numeral, Numeral.ofUnsigned? characters = some numeral ∧
      number = numeral.value ℚ := by
  constructor
  · rintro ⟨written, areWhole, areFraction, part⟩
    obtain ⟨read, isRead, rfl⟩ := readExponent_of_part part
    refine ⟨by simp, _, Numeral.ofUnsigned?_pointed written areWhole areFraction isRead, ?_⟩
    simp [Numeral.value]
  · rintro ⟨pointed, numeral, read, rfl⟩
    cases Spelling.of_read read with
    | @whole digits rest exponent written areDigits exponential =>
        exfalso
        rcases List.mem_append.mp pointed with member | member
        · exact absurd (areDigits '.' member) (by decide)
        · exact absurd ((Decimal.readExponent_spelling exponential).mem member) (by decide)
    | @pointed digits fraction rest exponent written areDigits areFraction exponential =>
        have constant := FloatingConstant.pointed written areDigits areFraction
          (part_of_readExponent exponential)
        simpa [Numeral.value] using constant

/-- A constant behind a sign is a numeral with a point. -/
theorem FloatingConstant.exists_signed {sign : Char} (signs : isSign sign)
    (constant : FloatingConstant characters number) :
    '.' ∈ sign :: characters ∧ ∃ numeral, Numeral.ofChars? (sign :: characters) = some numeral ∧
      (if sign == '-' then -number else number) = numeral.value ℚ := by
  obtain ⟨pointed, numeral, read, rfl⟩ := floatingConstant_iff.mp constant
  refine ⟨List.mem_cons_of_mem _ pointed, numeral.signed (sign == '-'), ?_, ?_⟩
  · rw [Numeral.ofChars?_cons signs, read]
    rfl
  · exact ((Spelling.of_read read).value_signed ℚ _).symm

theorem signedConstant_iff : SignedConstant characters number ↔
    '.' ∈ characters ∧ ∃ numeral, Numeral.ofChars? characters = some numeral ∧
      number = numeral.value ℚ := by
  constructor
  · intro constant
    cases constant with
    | plain constant =>
        obtain ⟨pointed, numeral, read, rfl⟩ := floatingConstant_iff.mp constant
        exact ⟨pointed, numeral, Numeral.ofChars?_of_ofUnsigned? read, rfl⟩
    | plus constant => exact constant.exists_signed rfl
    | minus constant => exact constant.exists_signed rfl
  · rintro ⟨pointed, numeral, read, rfl⟩
    obtain readSize | ⟨sign, rest, size, signs, rfl, readSize, rfl⟩ := Numeral.exists_unsigned read
    · exact .plain (floatingConstant_iff.mpr ⟨pointed, numeral, readSize, rfl⟩)
    · have behind : '.' ∈ rest := by
        obtain rfl | behind := List.mem_cons.mp pointed
        · exact absurd signs (by decide)
        · exact behind
      have constant : FloatingConstant rest (size.value ℚ) :=
        floatingConstant_iff.mpr ⟨behind, size, readSize, rfl⟩
      rw [(Spelling.of_read readSize).value_signed]
      obtain rfl | rfl : sign = '+' ∨ sign = '-' := by simpa [isSign] using signs
      · exact .plus constant
      · exact .minus constant

/-! ## Literals of initial values -/

/-- The literal of a text is the text between its outer blanks, if it is read as a number. -/
theorem literal_eq_some_iff {written text : String} :
    (InitialValue.text written).literal = some text ↔
      Text.trim written = text ∧ (Decimal.read? text).isSome := by
  simp only [InitialValue.literal]
  split
  case isTrue isRead =>
      constructor
      · intro isLiteral
        obtain rfl := Option.some.inj isLiteral
        exact ⟨rfl, isRead⟩
      · rintro ⟨rfl, -⟩
        rfl
  case isFalse unread =>
      constructor
      · intro isLiteral
        cases isLiteral
      · rintro ⟨rfl, isRead⟩
        exact absurd isRead unread

/-- Every number is written with a point. -/
theorem point_mem_doubleText (written : String) : '.' ∈ (Code.doubleText written).toList := by
  rw [Code.doubleText]
  split
  case isTrue pointed => exact List.contains_iff_mem.mp pointed
  case isFalse => simp

/-- A numeral is written as one constant, of the number that it stands for. -/
theorem signedConstant_doubleText {text : String}
    (read : Numeral.ofChars? text.toList = some numeral) :
    SignedConstant (Code.doubleText text).toList number ↔ number = numeral.value ℚ := by
  obtain ⟨double, readDouble, same⟩ := Decimal.exists_double ℚ read
  rw [signedConstant_iff]
  simp [point_mem_doubleText, readDouble, same]

/-- The name of a value has no point and no exponent mark, so it gets a point behind its end. -/
theorem doubleText_of_namesValue {text : String} (named : NamesValue text) :
    Code.doubleText text = text ++ ".0" := by
  have absent (character : Char) (noSign : ¬isSign character)
      (noLetter : character.toLower ∉ "infinity".toList ++ "nan".toList) :
      character ∉ text.toList := by
    intro member
    have behind : character ∈ behindSign text.toList := by
      obtain same | ⟨sign, signs, spelled⟩ := Decimal.exists_behindSign text.toList
      · rwa [same]
      · rw [spelled] at member
        obtain rfl | behind := List.mem_cons.mp member
        · exact absurd signs noSign
        · exact behind
    exact noLetter (named.toLower_mem behind)
  have noPoint := absent '.' (by decide) (by decide)
  have plain : ∀ character ∈ text.toList, (character != 'e' && character != 'E') = true := by
    intro character member
    have notLower : character ≠ 'e' := by
      rintro rfl
      exact absent 'e' (by decide) (by decide) member
    have notUpper : character ≠ 'E' := by
      rintro rfl
      exact absent 'E' (by decide) (by decide) member
    simp [notLower, notUpper]
  rw [← String.toList_inj]
  simp [Code.doubleText, noPoint, List.takeWhile_eq_self_iff.mpr plain, List.dropWhile_eq_nil_iff.mpr plain]

theorem not_signedConstant_of_namesValue {text : String} (named : NamesValue text) :
    ¬SignedConstant (Code.doubleText text).toList number := by
  intro constant
  obtain ⟨-, numeral, read, -⟩ := signedConstant_iff.mp constant
  obtain ⟨letter, member, strange⟩ := named.exists_letter
  have behind : letter ∈ (Code.doubleText text).toList := by
    rw [doubleText_of_namesValue named, String.toList_append]
    exact List.mem_append_left _ member
  exact strange (Numeral.mem_of_ofChars? read behind)

/-- The literal of an initial value is written as one constant, of the number that the literal stands
for, exactly if it is not the name of an infinite or undefined value. Such a name is written with a
point and a zero behind it, which is no constant. -/
theorem literal_constant {written text : String}
    (isLiteral : (InitialValue.text written).literal = some text) :
    (¬NamesValue text → ∃ numeral, Numeral.ofChars? text.toList = some numeral ∧
      ∀ number, SignedConstant (Code.doubleText text).toList number ↔ number = numeral.value ℚ) ∧
    (NamesValue text → Code.doubleText text = text ++ ".0" ∧
      ∀ number, ¬SignedConstant (Code.doubleText text).toList number) := by
  have isRead := (literal_eq_some_iff.mp isLiteral).2
  constructor
  · intro unnamed
    obtain isNumeral | named := Decimal.isSome_read?_iff.mp isRead
    · obtain ⟨numeral, read⟩ := Option.isSome_iff_exists.mp isNumeral
      exact ⟨numeral, read, fun number => signedConstant_doubleText read⟩
    · exact absurd named unnamed
  · intro named
    exact ⟨doubleText_of_namesValue named, fun number => not_signedConstant_of_namesValue named⟩

theorem literal_constant_scientific :
    (InitialValue.text " -3e5 ").literal = some "-3e5" ∧ Code.doubleText "-3e5" = "-3.0e5" ∧
      ∀ number, SignedConstant "-3.0e5".toList number ↔ number = -300000 := by
  have isLiteral : (InitialValue.text " -3e5 ").literal = some "-3e5" :=
    literal_eq_some_iff.mpr ⟨by decide +kernel, Decimal.isSome_read?_iff.mpr (by decide +kernel)⟩
  obtain ⟨numeral, read, constant⟩ := (literal_constant isLiteral).1 (by decide +kernel)
  have isNumeral : Numeral.ofChars? "-3e5".toList = some ⟨true, [3], [], 5⟩ := by decide +kernel
  obtain rfl := Option.some.inj (isNumeral.symm.trans read)
  have isDouble : Code.doubleText "-3e5" = "-3.0e5" := by decide +kernel
  rw [isDouble] at constant
  refine ⟨isLiteral, isDouble, fun number => (constant number).trans ?_⟩
  have value : (⟨true, [3], [], 5⟩ : Numeral).value ℚ = -300000 := by
    norm_num [Numeral.value, digitsValue]
  rw [value]

/-- The name of the infinite value is a literal, and what is written for it is no constant. -/
theorem infinity_not_constant :
    (InitialValue.text "inf").literal = some "inf" ∧ Code.doubleText "inf" = "inf.0" ∧
      ¬∃ number, SignedConstant (Code.doubleText "inf").toList number := by
  have named : NamesValue "inf" := by decide +kernel
  refine ⟨?_, doubleText_of_namesValue named, ?_⟩
  · exact literal_eq_some_iff.mpr ⟨by decide +kernel, Decimal.isSome_read?_iff.mpr (.inr named)⟩
  · rintro ⟨number, constant⟩
    exact not_signedConstant_of_namesValue named constant

end ComponentModel.CSyntax
