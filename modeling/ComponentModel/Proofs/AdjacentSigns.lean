import ComponentModel.Proofs.SignedRendering

/-!
# Minus signs side by side

In C two minus signs side by side are one token, which decrements a variable. The code of basic
arithmetic puts an operand behind a minus sign in parentheses if it is a sign, a difference or a
negative number itself. A product or quotient is left without, although its text may start with a
minus sign, that of its first factor. Exactly there two minus signs meet.

The proof is by induction on the expression. What is carried along is whether its text starts with a
minus sign, and that it never ends with one.
-/

namespace ComponentModel

namespace Equation

open Code (isAdditive isMultiplicative)
open CSyntax.Signed (Basic)
open Decimal (Numeral)

namespace Expr

/-- An expression of basic arithmetic with signs, of variables and of numbers that may have a sign
themselves. -/
inductive BasicArithmetic : Expr → Prop where
  | reference (declaration : Nat) : BasicArithmetic (reference declaration)
  | number {written : String} (numeral : (Numeral.ofChars? written.toList).isSome) :
      BasicArithmetic (number written)
  | negative {operand : Expr} (arithmetic : operand.BasicArithmetic) :
      BasicArithmetic (apply .minus operand absent)
  | basic (operator : Basic) {left right : Expr} (arithmeticLeft : left.BasicArithmetic)
      (arithmeticRight : right.BasicArithmetic) :
      BasicArithmetic (apply operator.binary.operator left right)

/-- Whether the text of an expression of basic arithmetic starts with a minus sign. -/
def startsWithMinus : Expr → Bool
  | number written => written.toList.head? == some '-'
  | apply .minus _ absent => true
  | apply .plus left _ => left.startsWithMinus
  | apply .minus left _ => left.startsWithMinus
  | apply .times left _ => !isAdditive left && left.startsWithMinus
  | apply .divide left _ => !isAdditive left && left.startsWithMinus
  | _ => false

/-- Whether an expression is a product or quotient whose text starts with a minus sign. -/
def isSignedProduct (expr : Expr) : Bool :=
  isMultiplicative expr && expr.startsWithMinus

/-- Whether a product or quotient whose text starts with a minus sign is the operand of a sign or
the right side of a difference. -/
def mergesSigns : Expr → Bool
  | apply .minus operand absent => operand.isSignedProduct || operand.mergesSigns
  | apply .minus left right => right.isSignedProduct || left.mergesSigns || right.mergesSigns
  | apply _ left right => left.mergesSigns || right.mergesSigns
  | _ => false

variable {expr left right : Expr}

theorem isPresent_of_arithmetic (arithmetic : expr.BasicArithmetic) : expr.isPresent := by
  cases arithmetic <;> rfl

theorem startsWithMinus_number (written : String) :
    (number written).startsWithMinus = (written.toList.head? == some '-') := rfl

theorem startsWithMinus_negative (operand : Expr) :
    (apply .minus operand absent).startsWithMinus = true := rfl

theorem startsWithMinus_plus (left right : Expr) :
    (apply .plus left right).startsWithMinus = left.startsWithMinus := rfl

theorem startsWithMinus_times (left right : Expr) :
    (apply .times left right).startsWithMinus = (!isAdditive left && left.startsWithMinus) := rfl

theorem startsWithMinus_divide (left right : Expr) :
    (apply .divide left right).startsWithMinus = (!isAdditive left && left.startsWithMinus) := rfl

theorem startsWithMinus_minus (present : right.isPresent) :
    (apply .minus left right).startsWithMinus = left.startsWithMinus := by
  cases right <;> first | rfl | cases present

theorem mergesSigns_negative (operand : Expr) :
    (apply .minus operand absent).mergesSigns =
      (operand.isSignedProduct || operand.mergesSigns) := rfl

theorem mergesSigns_of_ne_minus {operator : Operator} (left right : Expr)
    (other : operator ≠ .minus) :
    (apply operator left right).mergesSigns = (left.mergesSigns || right.mergesSigns) := by
  cases operator <;> first | rfl | exact absurd rfl other

theorem mergesSigns_minus (present : right.isPresent) :
    (apply .minus left right).mergesSigns =
      (right.isSignedProduct || left.mergesSigns || right.mergesSigns) := by
  cases right <;> first | rfl | cases present

end Expr

end Equation

namespace CSyntax.Signed

open Analysis (AnalysedModel)
open Code (Profile grouped isAdditive isMinus isMultiplicative isNegativeNumber)
open Decimal (Numeral)
open Equation (Expr Operator)

/-! ## Minus signs in a text -/

/-- Whether two neighbouring characters are not both minus signs. -/
def Apart (character next : Char) : Prop :=
  ¬(character = '-' ∧ next = '-')

instance : DecidableRel Apart := fun character next =>
  inferInstanceAs (Decidable ¬(character = '-' ∧ next = '-'))

/-- Two minus signs stand side by side in a text unless all its neighbours are apart. -/
theorem adjacent_iff (text : List Char) : ['-', '-'] <:+: text ↔ ¬text.IsChain Apart := by
  rw [List.isChain_iff_forall_rel_of_append_cons_cons]
  constructor
  · rintro ⟨front, back, rfl⟩ apart
    have spelled : front ++ ['-', '-'] ++ back = front ++ '-' :: '-' :: back := by simp
    exact apart spelled ⟨rfl, rfl⟩
  · intro met
    by_contra noneMet
    refine met fun character next front back spelled ⟨isMinus, isNextMinus⟩ => noneMet ?_
    exact ⟨front, back, by simp [spelled, isMinus, isNextMinus]⟩

/-- What minus signs a text has: whether it starts with one, and whether two stand side by side.
It does not end with one. -/
structure HasSigns (text : List Char) (starts merges : Bool) : Prop where
  nonempty : text ≠ []
  starts_iff : text.head? = some '-' ↔ starts
  last : '-' ∉ text.getLast?
  merges_iff : text.IsChain Apart ↔ merges = false

namespace HasSigns

variable {text left right : List Char} {starts merges leftStarts leftMerges rightStarts
  rightMerges : Bool}

/-- A text without minus signs. -/
theorem of_not_mem (nonempty : text ≠ []) (noMinus : '-' ∉ text) : HasSigns text false false where
  nonempty := nonempty
  starts_iff := by
    simpa using fun first => noMinus (List.mem_of_mem_head? first)
  last := fun last => noMinus (List.mem_of_mem_getLast? last)
  merges_iff := by
    refine iff_of_true ?_ rfl
    refine (List.pairwise_of_forall_mem_list fun character member _ _ => ?_).isChain
    rintro ⟨rfl, -⟩
    exact noMinus member

/-- A character in front of a text. -/
theorem behind (symbol : Char) (signs : HasSigns text starts merges) :
    HasSigns (symbol :: text) (symbol == '-') (symbol == '-' && starts || merges) where
  nonempty := List.cons_ne_nil _ _
  starts_iff := by simp
  last := by
    rw [List.getLast?_cons_of_ne_nil signs.nonempty]
    exact signs.last
  merges_iff := by
    have apart : (∀ next ∈ text.head?, Apart symbol next) ↔
        (symbol == '-' && starts) = false := by
      rw [← Bool.not_eq_true, Bool.and_eq_true, ← signs.starts_iff, beq_iff_eq]
      constructor
      · rintro apart ⟨isMinus, first⟩
        exact apart _ first ⟨isMinus, rfl⟩
      · rintro notBoth next first ⟨isMinus, rfl⟩
        exact notBoth ⟨isMinus, first⟩
    rw [List.isChain_cons, apart, signs.merges_iff, Bool.or_eq_false_iff]

theorem append (signsLeft : HasSigns left leftStarts leftMerges)
    (signsRight : HasSigns right rightStarts rightMerges) :
    HasSigns (left ++ right) leftStarts (leftMerges || rightMerges) where
  nonempty := by simp [signsLeft.nonempty]
  starts_iff := by
    rw [List.head?_append_of_ne_nil _ signsLeft.nonempty]
    exact signsLeft.starts_iff
  last := by
    rw [List.getLast?_append_of_ne_nil _ signsRight.nonempty]
    exact signsRight.last
  merges_iff := by
    have apart : ∀ character ∈ left.getLast?, ∀ next ∈ right.head?, Apart character next := by
      rintro character ends _ _ ⟨rfl, -⟩
      exact signsLeft.last ends
    rw [List.isChain_append, signsLeft.merges_iff, signsRight.merges_iff, Bool.or_eq_false_iff]
    exact ⟨fun chains => ⟨chains.1, chains.2.1⟩, fun noneMet => ⟨noneMet.1, noneMet.2, apart⟩⟩

theorem parenthesized (signs : HasSigns text starts merges) :
    HasSigns ('(' :: (text ++ [')'])) false merges := by
  have closing : HasSigns [')'] false false := .of_not_mem (by decide) (by decide)
  simpa using (signs.append closing).behind '('

theorem grouped {code : String} (needed : Bool) (signs : HasSigns code.toList starts merges) :
    HasSigns (grouped needed code).toList (!needed && starts) merges := by
  cases needed with
  | true => simpa [Code.grouped, Code.parenthesized] using signs.parenthesized
  | false => exact signs

end HasSigns

/-! ## Leaves -/

theorem hasSigns_word {characters : List Char} (isWord : IsWord characters) :
    HasSigns characters false false := by
  have of_name {name : List Char} (isName : IsName name) : '-' ∉ name := fun member =>
    absurd (isName.2 _ member) (by decide)
  cases isWord with
  | name isName =>
      refine .of_not_mem ?_ (of_name isName)
      rintro rfl
      exact absurd isName.1 (by decide)
  | @element array index isName _ areDigits =>
      refine .of_not_mem (by simp) ?_
      have noDigit : '-' ∉ index := fun member => absurd (areDigits _ member) (by decide)
      simp [of_name isName, noDigit]
  | undefined =>
      exact ⟨by decide, by decide, by decide, by decide⟩

/-- Inside a numeral a sign stands behind an exponent mark only. -/
theorem hasSigns_spelling {characters : List Char} {numeral : Numeral}
    (spelling : Decimal.Spelling characters numeral) : HasSigns characters false false where
  nonempty := by
    obtain ⟨start, rest, rfl, -⟩ := spelling.exists_start
    exact List.cons_ne_nil _ _
  starts_iff := by
    obtain ⟨start, rest, rfl, isStart⟩ := spelling.exists_start
    refine iff_of_false ?_ (by decide)
    intro first
    obtain rfl : start = '-' := by simpa using first
    exact absurd isStart (by decide)
  last := fun last => absurd (spelling.getLast? _ last) (by decide)
  merges_iff := by
    refine iff_of_true (spelling.isChain.imp ?_) rfl
    rintro character next continues ⟨rfl, rfl⟩
    rw [Decimal.Continues] at continues
    exact absurd continues (by decide)

theorem hasSigns_unsigned {written : String}
    (unsigned : (Numeral.ofUnsigned? written.toList).isSome) :
    HasSigns (Code.doubleText written).toList false false := by
  obtain ⟨numeral, read⟩ := Option.isSome_iff_exists.mp unsigned
  obtain ⟨double, readDouble, -⟩ := (Decimal.Spelling.of_read read).doubleText ℚ
  exact hasSigns_spelling (.of_read readDouble)

theorem hasSigns_number {written : String}
    (numeral : (Numeral.ofChars? written.toList).isSome) :
    HasSigns (Code.doubleText written).toList (Expr.number written).startsWithMinus false := by
  by_cases signed : written.toList.head?.any Decimal.isSign
  · obtain ⟨sign, rest, spelled⟩ : ∃ sign rest, written.toList = sign :: rest := by
      cases spelled : written.toList <;> simp_all
    have isSign : Decimal.isSign sign := by simpa [spelled] using signed
    rw [spelled, Numeral.ofChars?_cons isSign, Option.isSome_map] at numeral
    have signs : HasSigns (Code.doubleText (String.ofList rest)).toList false false :=
      hasSigns_unsigned (by simpa using numeral)
    rw [Decimal.doubleText_cons isSign spelled, Expr.startsWithMinus_number, spelled]
    simpa using signs.behind sign
  · have unsigned : (Numeral.ofUnsigned? written.toList).isSome := by
      rwa [Numeral.ofUnsigned?, if_neg signed]
    have noMinus : (Expr.number written).startsWithMinus = false := by
      rw [Expr.startsWithMinus_number, beq_eq_false_iff_ne]
      intro first
      exact signed (by simp [first, Decimal.isSign])
    rw [noMinus]
    exact hasSigns_unsigned unsigned

/-! ## Operands -/

section Operands

variable {expr operand left right : Expr}

theorem isLoose_of_arithmetic (arithmetic : expr.BasicArithmetic) :
    cProfile.isLoose expr = false := by
  cases arithmetic with
  | basic operator => cases operator <;> rfl
  | _ => rfl

/-- Behind a sign, what starts with a minus sign and has no parentheses is a product or quotient. -/
theorem isSignedProduct_of_sign (arithmetic : operand.BasicArithmetic) :
    (!signNeeds operand && operand.startsWithMinus) = operand.isSignedProduct := by
  cases arithmetic with
  | reference | negative => rfl
  | number => simp [signNeeds, isNegativeNumber, Expr.startsWithMinus_number, Expr.isSignedProduct,
      isMultiplicative, Expr.operator?, isMinus]
  | basic operator => cases operator <;> rfl

/-- The same holds on the right of a difference. -/
theorem isSignedProduct_of_minus (left : Expr) (arithmetic : right.BasicArithmetic) :
    (!cProfile.rightNeeds .minus left right && right.startsWithMinus) = right.isSignedProduct := by
  rw [Profile.rightNeeds, isLoose_of_arithmetic arithmetic]
  cases arithmetic with
  | reference | negative => rfl
  | number => simp [isNegativeNumber, Expr.startsWithMinus_number, Expr.isSignedProduct,
      isMultiplicative, Expr.operator?, isMinus, Expr.isBinary]
  | basic operator _ arithmeticRight =>
      have present := Expr.isPresent_of_arithmetic arithmeticRight
      cases operator
      case plus =>
          rw [Basic.binary, Binary.operator, Expr.isBinary, present, Bool.and_true,
            beq_self_eq_true, Bool.or_true, Bool.true_or]
          rfl
      all_goals rfl

end Operands

/-! ## The text of an expression -/

variable {reference : Bool → Nat → String} {expr : Expr}

/-- The text of an expression of basic arithmetic starts with a minus sign, and has two side by
side, exactly if the expression says so. -/
theorem hasSigns_code
    (emitted : ∀ declaration, (Token.word (reference false declaration)).IsEmitted)
    (arithmetic : expr.BasicArithmetic) :
    HasSigns (cProfile.code reference false expr).toList expr.startsWithMinus expr.mergesSigns := by
  induction arithmetic with
  | reference declaration => exact hasSigns_word (emitted declaration).lexeme
  | number numeral => exact hasSigns_number numeral
  | @negative operand arithmetic inductionHypothesis =>
      have isText := code_negative reference (isLoose_of_arithmetic arithmetic)
      rw [isText, Expr.startsWithMinus_negative, Expr.mergesSigns_negative,
        ← isSignedProduct_of_sign arithmetic]
      simpa using (inductionHypothesis.grouped (signNeeds operand)).behind '-'
  | @basic operator left right arithmeticLeft arithmeticRight leftHypothesis rightHypothesis =>
      have present := Expr.isPresent_of_arithmetic arithmeticRight
      have needsLeft := isLoose_of_arithmetic arithmeticLeft
      have signs := fun symbol =>
        (leftHypothesis.grouped (cProfile.leftNeeds operator.binary.operator left)).append
          ((rightHypothesis.grouped
            (cProfile.rightNeeds operator.binary.operator left right)).behind symbol)
      rw [Profile.code_basic .c reference operator left present]
      cases operator with
      | plus =>
          simpa [Basic.binary, Binary.operator, Profile.leftNeeds, needsLeft, Symbol.text,
            Expr.startsWithMinus_plus, Expr.mergesSigns_of_ne_minus] using signs '+'
      | minus =>
          rw [Basic.binary, Binary.operator, Expr.startsWithMinus_minus present,
            Expr.mergesSigns_minus present,
            ← isSignedProduct_of_minus left arithmeticRight, Bool.or_assoc, Bool.or_left_comm]
          simpa [Basic.binary, Binary.operator, Profile.leftNeeds, needsLeft, Symbol.text]
            using signs '-'
      | times =>
          simpa [Basic.binary, Binary.operator, Profile.leftNeeds, needsLeft, Symbol.text,
            Expr.startsWithMinus_times, Expr.mergesSigns_of_ne_minus] using signs '*'
      | divide =>
          simpa [Basic.binary, Binary.operator, Profile.leftNeeds, needsLeft, Symbol.text,
            Expr.startsWithMinus_divide, Expr.mergesSigns_of_ne_minus] using signs '/'

/-! ## The code of a model -/

/-- The text that an expression of basic arithmetic has in the C code of a model has two minus signs
side by side exactly if a product or quotient whose text starts with a minus sign is the operand of
a sign or the right side of a difference in it. -/
theorem minus_adjacent_iff (analysed : AnalysedModel) {expr : Expr}
    (arithmetic : expr.BasicArithmetic) :
    ['-', '-'] <:+: ((Profile.ofKind .c).code ((Profile.ofKind .c).referenceText analysed) false
        expr).toList ↔
      expr.mergesSigns := by
  rw [adjacent_iff, (hasSigns_code (reference_isEmitted analysed) arithmetic).merges_iff,
    Bool.not_eq_false]

/-- The difference `-a - -2`, with a negative number on its right. -/
def negativeDifference : Expr :=
  .apply .minus (.apply .minus (.reference 0) .absent) (.number "-2")

theorem negativeDifference_apart :
    negativeDifference.BasicArithmetic ∧ ¬['-', '-'] <:+: "-variables[0]-(-2.0)".toList := by
  have arithmetic : negativeDifference.BasicArithmetic :=
    .basic .minus (.negative (.reference 0)) (.number (by decide))
  have isText : (Profile.ofKind .c).code ((Profile.ofKind .c).referenceText threeConstants) false
      negativeDifference = "-variables[0]-(-2.0)" := by
    decide
  refine ⟨arithmetic, ?_⟩
  rw [← isText, minus_adjacent_iff threeConstants arithmetic]
  decide

/-- The product `-a * b` with a sign in front. -/
def negatedProduct : Expr :=
  .apply .minus (.apply .times (.apply .minus (.reference 0) .absent) (.reference 1)) .absent

/-- The code of a product with a sign in front decrements a variable if the product starts with a
sign itself. -/
theorem negatedProduct_decrements :
    negatedProduct.BasicArithmetic ∧
      (Profile.ofKind .c).code ((Profile.ofKind .c).referenceText threeConstants) false
        negatedProduct = "--variables[0]*variables[1]" ∧
      ['-', '-'] <:+: "--variables[0]*variables[1]".toList := by
  refine ⟨.negative (.basic .times (.negative (.reference 0)) (.reference 1)), by decide, ?_⟩
  exact ⟨[], "variables[0]*variables[1]".toList, by decide⟩

end CSyntax.Signed

end ComponentModel
