import ComponentModel.Code.Generation
import ComponentModel.Proofs.Numerals

/-!
# Texts that are read as numbers

Some operators are written in another way when an operand is a certain number, and this is told by
the text of the operand. A text in which an operator stands behind an operand is not read as a
number.
-/

namespace ComponentModel

/-- Whether an expression is a number close to a value, or a variable whose text is one. A plus sign
in front does not count. -/
def Equation.Expr.isNear (word : Nat → String) (value : Float) : Equation.Expr → Bool
  | .reference declaration => Code.denotes (word declaration) value
  | .number written => Code.denotes (Code.doubleText written) value
  | .apply .plus operand .absent => operand.isNear word value
  | _ => false

/-- An operator with a right operand is no number. -/
theorem Equation.Expr.isNear_apply {word : Nat → String} {value : Float} {operator : Operator}
    {left right : Expr} (present : right.isPresent) :
    (apply operator left right).isNear word value = false := by
  cases operator with
  | plus => cases right <;> first | rfl | cases present
  | _ => rfl

namespace Decimal

open Code (grouped parenthesized)

/-- Whether a text may be in front of an operator: it ends neither with a sign nor with the mark of
an exponent. -/
def EndsOperand (text : String) : Prop :=
  ∃ last ∈ text.toList.getLast?, ¬isMark last ∧ ¬isSign last

theorem EndsOperand.behind {text : String} (ends : EndsOperand text) (front : String) :
    EndsOperand (front ++ text) := by
  obtain ⟨last, isLast, plain⟩ := ends
  refine ⟨last, ?_, plain⟩
  simp only [String.toList_append, List.getLast?_append, Option.mem_def.mp isLast]
  rfl

theorem EndsOperand.closed (text : String) : EndsOperand (text ++ ")") := by
  have closing : EndsOperand ")" := ⟨')', rfl, by decide⟩
  exact closing.behind text

theorem EndsOperand.grouped {text : String} (ends : EndsOperand text) (needed : Bool) :
    EndsOperand (grouped needed text) := by
  cases needed with
  | true => exact .closed _
  | false => exact ends

/-- A numeral without a sign ends with a digit or a point. -/
theorem EndsOperand.literal {text : String}
    (unsigned : (Numeral.ofUnsigned? text.toList).isSome) : EndsOperand text := by
  obtain ⟨numeral, read⟩ := Option.isSome_iff_exists.mp unsigned
  have spelling := Spelling.of_read read
  have nonempty : text.toList ≠ [] := by
    obtain ⟨start, rest, spelled, -⟩ := spelling.exists_start
    exact spelled ▸ List.cons_ne_nil _ _
  have isLast := List.getLast?_eq_some_getLast nonempty
  refine ⟨_, isLast, ?_⟩
  obtain isDigit | isPoint := spelling.getLast? _ isLast
  · exact ⟨not_isMark_of_isDigit isDigit, not_isSign_of_isDigit isDigit⟩
  · rw [isPoint]
    decide

/-- In both default profiles a variable may be in front of an operator. -/
theorem endsOperand_referenceText (kind : Code.ProfileKind) (analysed : Analysis.AnalysedModel)
    (declaration : Nat) :
    EndsOperand ((Code.Profile.ofKind kind).referenceText analysed false declaration) := by
  have isClosed : (Code.Profile.ofKind kind).text .closeArray = "]" := by cases kind <;> rfl
  have isIntegration : (Code.Profile.ofKind kind).text .integrationVariable = "voi" := by
    cases kind <;> rfl
  have closed : EndsOperand "]" := ⟨']', rfl, by decide⟩
  rw [Code.Profile.referenceText]
  split
  case h_1 type place _ =>
      cases type with
      | integrationVariable =>
          rw [Code.Profile.variableText, isIntegration]
          exact ⟨'i', rfl, by decide⟩
      | _ =>
          rw [Code.Profile.variableText, isClosed]
          exact closed.behind _
  case h_2 =>
      cases kind with
      | c => exact .closed "sqrt(-1.0"
      | python => exact ⟨'n', rfl, by decide⟩

/-! ## Characters of numbers -/

theorem Numeral.mem_of_ofUnsigned? {characters : List Char} {numeral : Numeral}
    (read : ofUnsigned? characters = some numeral) {character : Char}
    (member : character ∈ characters) :
    character.isDigit ∨ character = '.' ∨ isMark character ∨ isSign character :=
  (Spelling.of_read read).mem member

theorem Numeral.mem_of_ofChars? {characters : List Char} {numeral : Numeral}
    (read : ofChars? characters = some numeral) {character : Char}
    (member : character ∈ characters) :
    character.isDigit ∨ character = '.' ∨ isMark character ∨ isSign character := by
  obtain readSize | ⟨sign, rest, size, signs, rfl, readSize, -⟩ := exists_unsigned read
  · exact mem_of_ofUnsigned? readSize member
  · obtain rfl | behind := List.mem_cons.mp member
    · exact .inr (.inr (.inr signs))
    · exact mem_of_ofUnsigned? readSize behind

/-- In a numeral without a sign, no operator stands behind the end of an operand. -/
theorem Numeral.not_operator_behind {front behind : List Char} {last operator : Char}
    (isLast : last ∈ front.getLast?) (plain : ¬isMark last)
    (isOperator : operator ∈ ['+', '-', '*', '/']) :
    ofUnsigned? (front ++ operator :: behind) = none := by
  cases read : ofUnsigned? (front ++ operator :: behind) with
  | none => rfl
  | some numeral =>
      have chain := (Spelling.of_read read).isChain
      have continues := (List.isChain_append.mp chain).2.2 last isLast operator rfl
      simp only [List.mem_cons, List.not_mem_nil, or_false] at isOperator
      rw [Continues] at continues
      rcases isOperator with rfl | rfl | rfl | rfl <;> simp_all [isMark, isSign]

theorem toLower_of_isDigit {character : Char} (isDigit : character.isDigit) :
    character.toLower = character := by
  have below : character.toNat ≤ '9'.toNat := (Char.isDigit_iff_toNat.mp isDigit).2
  have noCapital : ¬(character.val ≥ 'A'.val ∧ character.val ≤ 'Z'.val) := by
    rintro ⟨capital, -⟩
    have above : 'A'.toNat ≤ character.toNat := UInt32.le_iff_toNat_le.mp capital
    exact absurd (above.trans below) (by decide)
  exact dif_neg noCapital

/-! ## Names of values -/

/-- The characters behind the sign in front, if there is one. -/
def behindSign : List Char → List Char
  | '+' :: rest => rest
  | '-' :: rest => rest
  | rest => rest

theorem exists_behindSign (characters : List Char) :
    behindSign characters = characters ∨
      ∃ sign, isSign sign ∧ characters = sign :: behindSign characters := by
  rw [behindSign.eq_def]
  split
  case h_1 rest => exact .inr ⟨'+', rfl, rfl⟩
  case h_2 rest => exact .inr ⟨'-', rfl, rfl⟩
  case h_3 => exact .inl rfl

theorem mem_of_mem_behindSign {characters : List Char} {character : Char}
    (member : character ∈ behindSign characters) : character ∈ characters := by
  obtain same | ⟨sign, -, spelled⟩ := exists_behindSign characters
  · rwa [same] at member
  · rw [spelled]
    exact List.mem_cons_of_mem sign member

/-- Whether a text is the name of an infinite or undefined value, in any letter case and behind a
sign or not. -/
def NamesValue (text : String) : Prop :=
  String.ofList (lowered (behindSign text.toList)) ∈ ["inf", "infinity", "nan"]

instance (text : String) : Decidable (NamesValue text) :=
  inferInstanceAs (Decidable (_ ∈ _))

theorem isSome_of_name {name : String} {infinite undefined : Float} :
    (if name == "inf" || name == "infinity" then some infinite
      else if name == "nan" then some undefined
      else none).isSome ↔ name ∈ ["inf", "infinity", "nan"] := by
  grind

/-- A text is read as a number exactly if it is a numeral or the name of a value. -/
theorem isSome_read?_iff {text : String} :
    (read? text).isSome ↔ (Numeral.ofChars? text.toList).isSome ∨ NamesValue text := by
  rw [read?, NamesValue]
  generalize text.toList = characters
  cases Numeral.ofChars? characters with
  | some numeral => simp
  | none =>
      simp only [Option.isSome_none, Bool.false_eq_true, false_or]
      split
      case h_1 => exact isSome_of_name
      case h_2 => exact isSome_of_name
      case h_3 characters noPlus noMinus =>
        rw [behindSign]
        · exact isSome_of_name
        · exact noPlus
        · exact noMinus

theorem NamesValue.lowered_mem {text : String} (named : NamesValue text) :
    lowered (behindSign text.toList) ∈ ["inf".toList, "infinity".toList, "nan".toList] := by
  simpa [NamesValue, ← String.toList_inj] using named

/-- The letters of the names. -/
theorem NamesValue.toLower_mem {text : String} (named : NamesValue text) {character : Char}
    (member : character ∈ behindSign text.toList) :
    character.toLower ∈ "infinity".toList ++ "nan".toList := by
  have lower : character.toLower ∈ lowered (behindSign text.toList) := List.mem_map_of_mem member
  have letters : ∀ name ∈ ["inf".toList, "infinity".toList, "nan".toList],
      name.all ("infinity".toList ++ "nan".toList).contains := by
    decide
  exact List.contains_iff_mem.mp (List.all_eq_true.mp (letters _ named.lowered_mem) _ lower)

/-- Every name has an n, which no numeral has. -/
theorem NamesValue.exists_letter {text : String} (named : NamesValue text) :
    ∃ letter ∈ text.toList,
      ¬(letter.isDigit ∨ letter = '.' ∨ isMark letter ∨ isSign letter) := by
  have letters : ∀ name ∈ ["inf".toList, "infinity".toList, "nan".toList], 'n' ∈ name := by decide
  obtain ⟨letter, member, isN⟩ := List.mem_map.mp (letters _ named.lowered_mem)
  refine ⟨letter, mem_of_mem_behindSign member, ?_⟩
  rintro (isDigit | rfl | marked | signed)
  · rw [toLower_of_isDigit isDigit] at isN
    exact absurd isDigit (isN ▸ by decide)
  · exact absurd isN (by decide)
  · obtain rfl | rfl : letter = 'e' ∨ letter = 'E' := by simpa [isMark] using marked
    all_goals exact absurd isN (by decide)
  · obtain rfl | rfl : letter = '+' ∨ letter = '-' := by simpa [isSign] using signed
    all_goals exact absurd isN (by decide)

/-- A text that is no numeral is no number at all, if behind its sign there is a character that no
name of a value has. -/
theorem read?_eq_none {text : String} (noNumeral : Numeral.ofChars? text.toList = none)
    {character : Char} (strange : character.toLower ∉ "infinity".toList ++ "nan".toList)
    (member : character ∈ behindSign text.toList) : read? text = none := by
  have unnamed : ¬NamesValue text := fun named => strange (named.toLower_mem member)
  have unread : ¬(read? text).isSome := by simp [isSome_read?_iff, noNumeral, unnamed]
  simpa using unread

/-- A text with an operator behind an operand is not read as a number. -/
theorem read?_operator {left symbol : String} (ends : EndsOperand left)
    (isSymbol : symbol.toList.head?.any (['+', '-', '*', '/'].contains ·)) (right : String) :
    read? (left ++ symbol ++ right) = none := by
  obtain ⟨last, isLast, noMark, noSign⟩ := ends
  obtain ⟨operator, first, contained⟩ := (Option.any_eq_true _ _).mp isSymbol
  have isOperator : operator ∈ ['+', '-', '*', '/'] := List.contains_iff_mem.mp contained
  obtain ⟨others, symbolSpelled⟩ := List.head?_eq_some_iff.mp first
  have spelled : (left ++ symbol ++ right).toList =
      left.toList ++ operator :: (others ++ right.toList) := by
    simp [symbolSpelled]
  generalize others ++ right.toList = right at spelled
  have strange : operator.toLower ∉ "infinity".toList ++ "nan".toList := by
    simp only [List.mem_cons, List.not_mem_nil, or_false] at isOperator
    rcases isOperator with rfl | rfl | rfl | rfl <;> decide
  -- A sign is not all of the operand, because it does not end with one.
  have exists_front : ∀ sign rest, isSign sign →
      left.toList ++ operator :: right = sign :: rest →
        ∃ front, last ∈ front.getLast? ∧ rest = front ++ operator :: right := by
    intro sign rest signs whole
    cases first : left.toList with
    | nil => simp [first] at isLast
    | cons start front =>
        rw [first] at whole isLast
        obtain ⟨rfl, rfl⟩ := List.cons.inj whole
        refine ⟨front, ?_, rfl⟩
        cases front with
        | nil =>
            obtain rfl : start = last := by simpa using isLast
            exact absurd signs noSign
        | cons => simpa using isLast
  refine read?_eq_none ?_ strange ?_
  · rw [spelled, Option.eq_none_iff_forall_ne_some]
    intro numeral read
    obtain readSize | ⟨sign, rest, size, signs, whole, readSize, -⟩ := Numeral.exists_unsigned read
    · rw [Numeral.not_operator_behind isLast noMark isOperator] at readSize
      cases readSize
    · obtain ⟨front, isFrontLast, rfl⟩ := exists_front sign rest signs whole
      rw [Numeral.not_operator_behind isFrontLast noMark isOperator] at readSize
      cases readSize
  · rw [spelled]
    obtain same | ⟨sign, signs, whole⟩ := exists_behindSign (left.toList ++ operator :: right)
    · simp [same]
    · obtain ⟨front, -, same⟩ := exists_front sign _ signs whole
      simp [same]

theorem denotes_eq_false {text : String} (unread : read? text = none) (value : Float) :
    Code.denotes text value = false := by
  rw [Code.denotes, unread]

end Decimal

namespace Code

open Decimal (EndsOperand Numeral)
open Equation (Expr)

theorem isNegativeNumber_of_unsigned {written : String}
    (unsigned : (Numeral.ofUnsigned? written.toList).isSome) :
    isNegativeNumber (.number written) = false := by
  cases signed : written.toList.head? == some '-' with
  | false => exact signed
  | true =>
      rw [Numeral.ofUnsigned?, beq_iff_eq.mp signed] at unsigned
      cases unsigned

/-- A difference or a negative value, or a sum, is a sum or difference unless it is a negative
value. -/
theorem isMinus_or_isPlus {expr : Expr} (noSign : isMinus expr = expr.isBinary .minus) :
    (isMinus expr || expr.isBinary .plus) = isAdditive expr := by
  rw [noSign, Bool.or_comm]
  rfl

namespace Profile

/-- What the code around an operand relies on: the code of the operand may be in front of an
operator, and it is read as a number close to a value exactly if the operand is one. -/
structure TellsNumber (profile : Profile) (reference : Bool → Nat → String) (expr : Expr) :
    Prop where
  ends : EndsOperand (profile.code reference false expr)
  denotes (value : Float) :
    denotes (profile.code reference false expr) value = expr.isNear (reference false) value

/-- An operator between two operands is no number. -/
theorem TellsNumber.of_operator {profile : Profile} {reference : Bool → Nat → String} {expr : Expr}
    {front symbol behind : String}
    (isText : profile.code reference false expr = front ++ symbol ++ behind)
    (endsFront : EndsOperand front)
    (isSymbol : symbol.toList.head?.any (['+', '-', '*', '/'].contains ·))
    (endsBehind : EndsOperand behind)
    (notNear : ∀ value, expr.isNear (reference false) value = false) :
    profile.TellsNumber reference expr where
  ends := isText ▸ endsBehind.behind _
  denotes value := by
    have unread := Decimal.read?_operator endsFront isSymbol behind
    rw [isText, notNear, Decimal.denotes_eq_false unread]

end Profile

end Code

end ComponentModel
