import ComponentModel.Code.Rendering
import ComponentModel.Decimal.Layout
import Mathlib.Algebra.Order.Field.Basic
import Mathlib.Algebra.Order.Ring.Cast
import Mathlib.Data.List.Chain
import Mathlib.Data.List.TakeWhile
import Mathlib.Tactic.FieldSimp
import Mathlib.Tactic.Ring

/-!
# Numerals in generated code

A number of a model is written into code as a double: with a point. The numeral that is read back
has the same value in every ordered field. Without a sign in front, a numeral starts with a digit
or a point, ends with a digit or a point, and has a sign only behind an exponent mark; that is why
an operator behind a numeral is never taken for a part of it.
-/

namespace ComponentModel.Decimal

/-- Whether a character is a sign. -/
def isSign (character : Char) : Bool :=
  character == '+' || character == '-'

/-- Whether a character starts an exponent. -/
def isMark (character : Char) : Bool :=
  character == 'e' || character == 'E'

/-- The numeral of a text that has no sign in front. -/
def Numeral.ofUnsigned? (characters : List Char) : Option Numeral :=
  if characters.head?.any isSign then none else Numeral.ofChars? characters

/-- The value of a numeral in a field. -/
def Numeral.value (K : Type*) [Field K] (numeral : Numeral) : K :=
  let size : K := digitsValue (numeral.whole ++ numeral.fraction) *
    10 ^ (numeral.exponent - numeral.fraction.length)
  if numeral.negative then -size else size

/-- The value of a number without a sign, as it is written. -/
def literalValue (K : Type*) [Field K] (written : String) : K :=
  ((Numeral.ofUnsigned? written.toList).map (Numeral.value K)).getD 0

/-! ## Digits -/

/-- Whether all characters are digits. -/
abbrev AreDigits (characters : List Char) : Prop :=
  ∀ character ∈ characters, character.isDigit

/-- The value of a digit. -/
def digitValue (digit : Char) : Nat :=
  digit.toNat - '0'.toNat

/-- The digits of a number tell the number. -/
theorem digitText_injective : Function.Injective digitText := by
  intro one other same
  have digits : Nat.toDigits 10 one = Nat.toDigits 10 other := by
    simpa [digitText] using congrArg String.toList same
  simpa using congrArg (Nat.ofDigitChars 10 · 0) digits

theorem spanDigits_append {digits rest : List Char}
    (areDigits : AreDigits digits)
    (stops : ∀ character ∈ rest.head?, ¬character.isDigit) :
    spanDigits (digits ++ rest) = (digits.map digitValue, rest) := by
  have noMore : rest.takeWhile Char.isDigit = [] ∧ rest.dropWhile Char.isDigit = rest := by
    cases rest with
    | nil => simp
    | cons character rest => simp_all
  simp only [spanDigits, List.span_eq_takeWhile_dropWhile,
    List.takeWhile_append_of_pos areDigits, List.dropWhile_append_of_pos areDigits, noMore.1,
    noMore.2, List.append_nil]
  rfl

theorem exists_digits (characters : List Char) :
    ∃ digits rest, characters = digits ++ rest ∧ AreDigits digits ∧
      ∀ character ∈ rest.head?, ¬character.isDigit := by
  refine ⟨characters.takeWhile Char.isDigit, characters.dropWhile Char.isDigit,
    List.takeWhile_append_dropWhile.symm, fun _ member => List.mem_takeWhile_imp member,
    fun character first => ?_⟩
  have := List.head?_dropWhile_not Char.isDigit characters
  simp_all

theorem digitsValue_append_zero (digits : List Nat) :
    digitsValue (digits ++ [0]) = digitsValue digits * 10 := by
  simp [digitsValue]

/-! ## The spelling of a numeral -/

/-- The spelling of an exponent, which may be missing. -/
inductive ExponentSpelling : List Char → Prop where
  | none : ExponentSpelling []
  | some {mark : Char} {sign digits : List Char} (marked : isMark mark)
      (short : sign.length ≤ 1) (signed : ∀ character ∈ sign, isSign character)
      (written : digits ≠ []) (areDigits : AreDigits digits) :
      ExponentSpelling (mark :: (sign ++ digits))

theorem exists_sign {characters : List Char} {digits : List Nat}
    (found : spanDigits (match characters with
      | '+' :: rest => (false, rest)
      | '-' :: rest => (true, rest)
      | rest => (false, rest)).2 = (digits, [])) :
    ∃ sign rest, sign.length ≤ 1 ∧ (∀ character ∈ sign, isSign character) ∧
      characters = sign ++ rest ∧ spanDigits rest = (digits, []) := by
  split at found
  case h_1 rest => exact ⟨['+'], rest, by simp, by simp [isSign], rfl, found⟩
  case h_2 rest => exact ⟨['-'], rest, by simp, by simp [isSign], rfl, found⟩
  case h_3 => exact ⟨[], characters, by simp, by simp, rfl, found⟩

theorem readExponent_spelling {characters : List Char} {exponent : Option Int}
    (read : readExponent characters = some (exponent, [])) : ExponentSpelling characters := by
  cases characters with
  | nil => exact .none
  | cons mark rest =>
    simp only [readExponent] at read
    split at read
    case isFalse => simp at read
    case isTrue marked =>
      split at read
      case h_1 => contradiction
      case h_2 written found =>
        obtain ⟨-, rfl⟩ : _ ∧ _ = [] := by simpa using read
        obtain ⟨sign, rest, short, signed, rfl, spanned⟩ := exists_sign found
        obtain ⟨digits, rest, rfl, areDigits, stops⟩ := exists_digits rest
        rw [spanDigits_append areDigits stops] at spanned
        obtain ⟨rfl, rfl⟩ := Prod.mk.inj spanned
        rw [List.append_nil]
        exact .some marked short signed (by simpa using written) areDigits

theorem readExponent_stops {characters : List Char} {exponent : Option Int}
    (read : readExponent characters = some (exponent, [])) :
    ∀ character ∈ characters.head?, isMark character := by
  cases readExponent_spelling read with
  | none => simp
  | some marked => simpa using marked

/-- The spelling of a numeral without a sign: digits, a point with digits, and an exponent. -/
inductive Spelling : List Char → Numeral → Prop where
  | whole {digits rest : List Char} {exponent : Option Int} (written : digits ≠ [])
      (areDigits : AreDigits digits)
      (exponential : readExponent rest = some (exponent, [])) :
      Spelling (digits ++ rest) ⟨false, digits.map digitValue, [], exponent.getD 0⟩
  | pointed {digits fraction rest : List Char} {exponent : Option Int}
      (written : digits ≠ [] ∨ fraction ≠ [])
      (areDigits : AreDigits digits)
      (areFraction : AreDigits fraction)
      (exponential : readExponent rest = some (exponent, [])) :
      Spelling (digits ++ '.' :: (fraction ++ rest))
        ⟨false, digits.map digitValue, fraction.map digitValue, exponent.getD 0⟩

theorem exists_exponent {whole fraction : List Nat} {rest : List Char} {numeral : Numeral}
    (read : (if (whole.isEmpty && fraction.isEmpty) = true then none
      else match readExponent rest with
        | some (exponent, []) => some ⟨false, whole, fraction, exponent.getD 0⟩
        | _ => none) = some numeral) :
    (whole ≠ [] ∨ fraction ≠ []) ∧ ∃ exponent, readExponent rest = some (exponent, []) ∧
      numeral = ⟨false, whole, fraction, exponent.getD 0⟩ := by
  split at read
  case isTrue => contradiction
  case isFalse written =>
    split at read
    case h_1 exponent exponential =>
      refine ⟨?_, exponent, exponential, (Option.some.inj read).symm⟩
      simpa [Classical.or_iff_not_imp_left] using written
    case h_2 => contradiction

theorem Spelling.of_read {characters : List Char} {numeral : Numeral}
    (read : Numeral.ofUnsigned? characters = some numeral) : Spelling characters numeral := by
  rw [Numeral.ofUnsigned?] at read
  split at read
  case isTrue => contradiction
  case isFalse unsigned =>
    rw [Numeral.ofChars?] at read
    case x | x_1 =>
      rintro rest rfl
      exact unsigned rfl
    obtain ⟨digits, rest, rfl, areDigits, stops⟩ := exists_digits characters
    simp only [spanDigits_append areDigits stops] at read
    split at read
    case h_1 rest =>
      obtain ⟨fraction, rest, rfl, areFraction, stops⟩ := exists_digits rest
      simp only [spanDigits_append areFraction stops] at read
      obtain ⟨written, exponent, exponential, rfl⟩ := exists_exponent read
      exact .pointed (by simpa using written) areDigits areFraction exponential
    case h_2 =>
      obtain ⟨written, exponent, exponential, rfl⟩ := exists_exponent read
      exact .whole (by simpa using written) areDigits exponential

/-! ## Characters inside a numeral -/

theorem not_isMark_of_isDigit {character : Char} (isDigit : character.isDigit) :
    ¬isMark character := by
  intro marked
  obtain rfl | rfl : character = 'e' ∨ character = 'E' := by simpa [isMark] using marked
  · exact absurd isDigit (by decide)
  · exact absurd isDigit (by decide)

theorem not_isSign_of_isDigit {character : Char} (isDigit : character.isDigit) :
    ¬isSign character := by
  intro signed
  obtain rfl | rfl : character = '+' ∨ character = '-' := by simpa [isSign] using signed
  · exact absurd isDigit (by decide)
  · exact absurd isDigit (by decide)

theorem Spelling.exists_start {characters : List Char} {numeral : Numeral}
    (spelling : Spelling characters numeral) :
    ∃ start rest, characters = start :: rest ∧ (start.isDigit ∨ start = '.') := by
  cases spelling with
  | @whole digits rest exponent written areDigits _ =>
    obtain ⟨start, digits, rfl⟩ := List.exists_cons_of_ne_nil written
    exact ⟨start, digits ++ rest, rfl, .inl (areDigits start List.mem_cons_self)⟩
  | @pointed digits fraction rest exponent _ areDigits =>
    cases digits with
    | nil => exact ⟨'.', fraction ++ rest, rfl, .inr rfl⟩
    | cons start digits =>
      exact ⟨start, _, List.cons_append, .inl (areDigits start List.mem_cons_self)⟩

/-- Whether a character may stand behind another one inside a numeral. -/
def Continues (previous next : Char) : Prop :=
  next.isDigit ∨ next = '.' ∨ isMark next ∨ isSign next ∧ isMark previous

theorem ExponentSpelling.isChain {characters : List Char} (spelling : ExponentSpelling characters) :
    characters.IsChain Continues := by
  cases spelling with
  | none => exact .nil
  | @some mark sign digits marked short signed written areDigits =>
    have chain : digits.IsChain Continues :=
      (List.pairwise_of_forall_mem_list fun _ _ next member => .inl (areDigits next member)).isChain
    match sign, short with
    | [], _ =>
      exact chain.cons fun next first => .inl (areDigits next (List.mem_of_mem_head? first))
    | [sign], _ =>
      refine .cons_cons (.inr (.inr (.inr ⟨signed sign (List.mem_singleton_self _), marked⟩))) ?_
      exact chain.cons fun next first => .inl (areDigits next (List.mem_of_mem_head? first))

theorem ExponentSpelling.getLast? {characters : List Char}
    (spelling : ExponentSpelling characters) :
    ∀ character ∈ characters.getLast?, character.isDigit := by
  cases spelling with
  | none => simp
  | @some mark sign digits marked short signed written areDigits =>
    intro character last
    rw [← List.cons_append, List.getLast?_append_of_ne_nil _ written] at last
    exact areDigits character (List.mem_of_mem_getLast? last)

theorem ExponentSpelling.mem {characters : List Char} (spelling : ExponentSpelling characters)
    {character : Char} (member : character ∈ characters) :
    character.isDigit ∨ isMark character ∨ isSign character := by
  cases spelling with
  | none => simp at member
  | @some mark sign digits marked short signed written areDigits =>
    obtain rfl | member | member : character = mark ∨ character ∈ sign ∨ character ∈ digits := by
      simpa using member
    · exact .inr (.inl marked)
    · exact .inr (.inr (signed character member))
    · exact .inl (areDigits character member)

/-- The digits and the point of a numeral, and its exponent. -/
theorem Spelling.exists_front {characters : List Char} {numeral : Numeral}
    (spelling : Spelling characters numeral) :
    ∃ front rest, characters = front ++ rest ∧ ExponentSpelling rest ∧
      ∀ character ∈ front, character.isDigit ∨ character = '.' := by
  cases spelling with
  | @whole digits rest _ _ areDigits exponential =>
    exact ⟨digits, rest, rfl, readExponent_spelling exponential, fun character member =>
      .inl (areDigits character member)⟩
  | @pointed digits fraction rest _ _ areDigits areFraction exponential =>
    exact ⟨digits ++ '.' :: fraction, rest, by simp, readExponent_spelling exponential, by grind⟩

theorem Spelling.mem {characters : List Char} {numeral : Numeral}
    (spelling : Spelling characters numeral) {character : Char} (member : character ∈ characters) :
    character.isDigit ∨ character = '.' ∨ isMark character ∨ isSign character := by
  obtain ⟨front, rest, rfl, exponential, plain⟩ := spelling.exists_front
  obtain member | member := List.mem_append.mp member
  · exact (plain character member).imp_right .inl
  · exact (exponential.mem member).imp_right .inr

theorem Spelling.isChain {characters : List Char} {numeral : Numeral}
    (spelling : Spelling characters numeral) : characters.IsChain Continues := by
  obtain ⟨front, rest, rfl, exponential, plain⟩ := spelling.exists_front
  have chain : front.IsChain Continues :=
    (List.pairwise_of_forall_mem_list fun _ _ next member =>
      (plain next member).imp_right .inl).isChain
  refine List.isChain_append.mpr ⟨chain, exponential.isChain, fun previous _ next first => ?_⟩
  cases exponential with
  | none => simp at first
  | some marked =>
    obtain rfl : _ = next := by simpa using first
    exact .inr (.inr (.inl marked))

theorem Spelling.getLast? {characters : List Char} {numeral : Numeral}
    (spelling : Spelling characters numeral) :
    ∀ character ∈ characters.getLast?, character.isDigit ∨ character = '.' := by
  obtain ⟨front, rest, rfl, exponential, plain⟩ := spelling.exists_front
  intro character last
  rw [List.getLast?_append] at last
  cases ending : rest.getLast? with
  | none => exact plain character (List.mem_of_mem_getLast? (by simpa [ending] using last))
  | some digit =>
    obtain rfl : digit = character := by simpa [ending] using last
    exact .inl (exponential.getLast? digit ending)

/-- Behind a numeral, what makes it longer is a digit, a point or an exponent. -/
theorem Spelling.continued {characters more : List Char} {next : Char} {short long : Numeral}
    (spelling : Spelling characters short) (longer : Spelling (characters ++ next :: more) long) :
    next.isDigit ∨ next = '.' ∨ isMark next := by
  have nonempty : characters ≠ [] := by
    obtain ⟨start, rest, rfl, -⟩ := spelling.exists_start
    exact List.cons_ne_nil _ _
  have last := List.getLast?_eq_some_getLast nonempty
  have chain := (List.isChain_append.mp longer.isChain).2.2 _ last next rfl
  obtain isDigit | isPoint | marked | ⟨-, marked⟩ := chain
  · exact .inl isDigit
  · exact .inr (.inl isPoint)
  · exact .inr (.inr marked)
  · obtain isDigit | isPoint := spelling.getLast? _ last
    · exact absurd marked (not_isMark_of_isDigit isDigit)
    · simp [isPoint, isMark] at marked

/-! ## Numbers as doubles -/

theorem Numeral.ofUnsigned?_pointed {digits fraction rest : List Char} {exponent : Option Int}
    (written : digits ≠ [] ∨ fraction ≠ [])
    (areDigits : AreDigits digits)
    (areFraction : AreDigits fraction)
    (exponential : readExponent rest = some (exponent, [])) :
    Numeral.ofUnsigned? (digits ++ '.' :: (fraction ++ rest)) =
      some ⟨false, digits.map digitValue, fraction.map digitValue, exponent.getD 0⟩ := by
  have stops : ∀ character ∈ rest.head?, ¬character.isDigit := fun character first isDigit =>
    not_isMark_of_isDigit isDigit (readExponent_stops exponential character first)
  have unsigned : ¬(digits ++ '.' :: (fraction ++ rest)).head?.any isSign := by
    cases digits with
    | nil => simp [isSign]
    | cons first digits =>
      simpa using not_isSign_of_isDigit (areDigits first List.mem_cons_self)
  have isWritten : ¬((digits.map digitValue).isEmpty && (fraction.map digitValue).isEmpty) := by
    simpa [Classical.or_iff_not_imp_left] using written
  rw [ofUnsigned?, if_neg unsigned, ofChars?]
  case x | x_1 =>
    intro behind spelled
    rw [spelled] at unsigned
    exact unsigned rfl
  have pointed : ∀ character ∈ ('.' :: (fraction ++ rest)).head?, ¬character.isDigit := by simp
  simp only [spanDigits_append areDigits pointed, spanDigits_append areFraction stops, exponential]
  rw [if_neg isWritten]

theorem value_append_zero [Field K] [CharZero K] (digits : List Nat) (exponent : Int) :
    (⟨false, digits, [0], exponent⟩ : Numeral).value K =
      (⟨false, digits, [], exponent⟩ : Numeral).value K := by
  have : (10 : K) ≠ 0 := by norm_num
  simp [Numeral.value, digitsValue_append_zero, zpow_sub_one₀ this]
  field_simp

/-- In the double of a whole number, a point with a zero stands behind the digits. -/
theorem doubleText_whole {written : String} {digits rest : List Char} {exponent : Option Int}
    (spelled : written.toList = digits ++ rest) (areDigits : AreDigits digits)
    (exponential : readExponent rest = some (exponent, [])) :
    (Code.doubleText written).toList = digits ++ '.' :: (['0'] ++ rest) := by
  have noPoint : (digits ++ rest).contains '.' = false := by
    have notBehind : '.' ∉ rest := fun member =>
      absurd ((readExponent_spelling exponential).mem member) (by decide)
    have notDigit : '.' ∉ digits := fun member => absurd (areDigits '.' member) (by decide)
    simp [notBehind, notDigit]
  have plain : ∀ character ∈ digits, (character != 'e' && character != 'E') = true := by
    intro character member
    simpa [isMark] using not_isMark_of_isDigit (areDigits character member)
  have behind : rest.takeWhile (fun character => character != 'e' && character != 'E') = [] ∧
      rest.dropWhile (fun character => character != 'e' && character != 'E') = rest := by
    have stops := readExponent_stops exponential
    cases rest with
    | nil => simp
    | cons mark rest =>
      have marked : mark = 'e' ∨ mark = 'E' := by simpa [isMark] using stops
      obtain rfl | rfl := marked <;> simp
  rw [Code.doubleText, spelled]
  simp only [noPoint, Bool.false_eq_true, if_false, String.toList_ofList]
  rw [List.takeWhile_append_of_pos plain, List.dropWhile_append_of_pos plain, behind.1,
    behind.2]
  simp

/-- A number is the same numeral, up to a zero behind the point, when it is written as a double. -/
theorem Spelling.doubleText {written : String} {numeral : Numeral}
    (spelling : Spelling written.toList numeral) (K : Type*) [Field K] [CharZero K] :
    ∃ double, Numeral.ofUnsigned? (Code.doubleText written).toList = some double ∧
      double.value K = numeral.value K := by
  generalize spelled : written.toList = characters at spelling
  cases spelling with
  | @pointed digits fraction rest exponent written' areDigits areFraction exponential =>
    have pointed : (Code.doubleText written).toList = digits ++ '.' :: (fraction ++ rest) := by
      simp [Code.doubleText, spelled]
    have read := Numeral.ofUnsigned?_pointed written' areDigits areFraction exponential
    exact ⟨_, pointed ▸ read, rfl⟩
  | @whole digits rest exponent written' areDigits exponential =>
    have pointed := doubleText_whole spelled areDigits exponential
    have isZero : AreDigits ['0'] := List.forall_mem_singleton.mpr rfl
    have read := Numeral.ofUnsigned?_pointed (.inl written') areDigits isZero exponential
    exact ⟨_, pointed ▸ read, value_append_zero _ _⟩

theorem literalValue_doubleText {written : String} {K : Type*} [Field K] [CharZero K]
    (unsigned : (Numeral.ofUnsigned? written.toList).isSome) :
    (Numeral.ofUnsigned? (Code.doubleText written).toList).isSome ∧
      literalValue K (Code.doubleText written) = literalValue K written := by
  obtain ⟨numeral, read⟩ := Option.isSome_iff_exists.mp unsigned
  obtain ⟨double, readDouble, sameValue⟩ := (Spelling.of_read read).doubleText K
  exact ⟨by simp [readDouble], by simp [literalValue, read, readDouble, sameValue]⟩

/-! ## Signs -/

/-- A numeral behind a sign, which may be a minus. -/
def Numeral.signed (negative : Bool) (numeral : Numeral) : Numeral :=
  { numeral with negative }

theorem Spelling.value_signed {characters : List Char} {numeral : Numeral}
    (spelling : Spelling characters numeral) (K : Type*) [Field K] (negative : Bool) :
    (numeral.signed negative).value K =
      if negative then -numeral.value K else numeral.value K := by
  cases spelling <;> cases negative <;> simp [Numeral.signed, Numeral.value]

/-- A text with a sign in front is no numeral without one. -/
theorem Numeral.ofUnsigned?_cons {sign : Char} (isSign : isSign sign) (rest : List Char) :
    ofUnsigned? (sign :: rest) = none :=
  if_pos isSign

theorem Numeral.ofChars?_of_ofUnsigned? {characters : List Char} {numeral : Numeral}
    (read : ofUnsigned? characters = some numeral) : ofChars? characters = some numeral := by
  rw [ofUnsigned?] at read
  split at read
  case isTrue => cases read
  case isFalse => exact read

/-- A sign stays in front of a double. -/
theorem doubleText_cons {sign : Char} (signs : isSign sign) {written : String} {rest : List Char}
    (spelled : written.toList = sign :: rest) :
    (Code.doubleText written).toList =
      sign :: (Code.doubleText (String.ofList rest)).toList := by
  have first : sign = '+' ∨ sign = '-' := by simpa [isSign] using signs
  rw [Code.doubleText, Code.doubleText, spelled, String.toList_ofList]
  rcases first with rfl | rfl
  all_goals
    by_cases pointed : '.' ∈ rest
    · simp [pointed, spelled]
    · simp [pointed]

/-- The sign of a numeral does not count for the reading of its other parts. -/
theorem Numeral.signed_parts (negative : Bool) (whole fraction : List Nat) (rest : List Char) :
    (if (whole.isEmpty && fraction.isEmpty) = true then none
      else match readExponent rest with
        | some (exponent, []) => some (⟨negative, whole, fraction, exponent.getD 0⟩ : Numeral)
        | _ => none) =
      Option.map (signed negative) (if (whole.isEmpty && fraction.isEmpty) = true then none
        else match readExponent rest with
          | some (exponent, []) => some ⟨false, whole, fraction, exponent.getD 0⟩
          | _ => none) := by
  split
  · rfl
  · split <;> rfl

/-- Behind a sign stands a numeral without one. -/
theorem Numeral.ofChars?_cons {sign : Char} (signs : isSign sign) (rest : List Char) :
    ofChars? (sign :: rest) = (ofUnsigned? rest).map (signed (sign == '-')) := by
  have first : sign = '+' ∨ sign = '-' := by simpa [isSign] using signs
  by_cases again : rest.head?.any isSign
  · -- After the second sign there is no digit and no point.
    obtain ⟨second, rest, rfl⟩ : ∃ second behind, rest = second :: behind := by
      cases rest <;> simp_all
    have second : second = '+' ∨ second = '-' := by simpa [isSign] using again
    rw [ofUnsigned?_cons again]
    rcases first with rfl | rfl <;> rcases second with rfl | rfl <;> rfl
  · rw [ofUnsigned?, if_neg again]
    rcases first with rfl | rfl
    all_goals
      refine (signed_parts _ _ _ _).trans (congrArg _ ?_)
      rw [ofChars?]
      case x | x_1 =>
        rintro behind rfl
        exact again rfl
      rfl

/-- A numeral is one without a sign, or such a one behind a sign. -/
theorem Numeral.exists_unsigned {characters : List Char} {numeral : Numeral}
    (read : ofChars? characters = some numeral) :
    ofUnsigned? characters = some numeral ∨
      ∃ sign rest size, isSign sign ∧ characters = sign :: rest ∧ ofUnsigned? rest = some size ∧
        numeral = size.signed (sign == '-') := by
  by_cases signed : characters.head?.any isSign
  · obtain ⟨sign, rest, rfl⟩ : ∃ sign rest, characters = sign :: rest := by
      cases characters <;> simp_all
    have isSign : isSign sign := by simpa using signed
    rw [ofChars?_cons isSign] at read
    obtain ⟨size, readSize, rfl⟩ := Option.map_eq_some_iff.mp read
    exact .inr ⟨sign, rest, size, isSign, rfl, readSize, rfl⟩
  · left
    rw [ofUnsigned?, if_neg signed, read]

/-- A number is the same numeral, up to a zero behind the point, when it is written as a double,
whether or not it has a sign. -/
theorem exists_double {written : String} {numeral : Numeral} (K : Type*) [Field K] [CharZero K]
    (read : Numeral.ofChars? written.toList = some numeral) :
    ∃ double, Numeral.ofChars? (Code.doubleText written).toList = some double ∧
      double.value K = numeral.value K := by
  obtain readSize | ⟨sign, rest, size, signs, spelled, readSize, rfl⟩ :=
    Numeral.exists_unsigned read
  · obtain ⟨double, readDouble, same⟩ := (Spelling.of_read readSize).doubleText K
    exact ⟨double, Numeral.ofChars?_of_ofUnsigned? readDouble, same⟩
  · have spelling := Spelling.of_read readSize
    have behind : Spelling (String.ofList rest).toList size := by simpa using spelling
    obtain ⟨double, readDouble, same⟩ := behind.doubleText K
    refine ⟨double.signed (sign == '-'), ?_, ?_⟩
    · rw [doubleText_cons signs spelled, Numeral.ofChars?_cons signs, readDouble]
      rfl
    · rw [spelling.value_signed K, (Spelling.of_read readDouble).value_signed K, same]

end ComponentModel.Decimal
