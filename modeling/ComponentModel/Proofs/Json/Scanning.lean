import ComponentModel.Json.Token
import ComponentModel.Json.Writer
import ComponentModel.Proofs.Numerals

/-!
# Scanning what has been written

A written token is cut out of a text again, whatever stands behind it, as long as nothing makes a
number longer. Strings and whole numbers are read as they were; a number that reads back on its own
does so inside a document.
-/

namespace ComponentModel.Json

open Decimal (AreDigits digitValue digitsValue digitText isMark isSign spanDigits readExponent)

/-! ## Strings -/

theorem hexDigit?_hexDigit : ∀ value < 16, hexDigit? (hexDigit value) = some value := by
  decide

/-- A control character is read from its number. -/
theorem hexUnit?_control {code : Nat} (control : code < 0x20) :
    hexUnit? '0' '0' (hexDigit (code / 16)) (hexDigit (code % 16)) = some code := by
  have zero : hexDigit? '0' = some 0 := rfl
  simp only [hexUnit?, zero, hexDigit?_hexDigit (code / 16) (by omega),
    hexDigit?_hexDigit (code % 16) (by omega), Option.bind_eq_bind, Option.bind_some,
    Option.pure_def, Option.some.injEq]
  omega

/-- A written character is read as it was. -/
theorem scanString_escape (character : Char) (rest : List Char) :
    scanString none (escape character ++ rest) =
      (scanString none rest).map fun read => (character :: read.1, read.2) := by
  unfold escape
  split
  case h_8 noQuote noBackslash _ _ _ _ _ =>
    split
    case isTrue control =>
      have noHigh : isHighSurrogate character.toNat = false := by simp [isHighSurrogate]; omega
      have noLow : isLowSurrogate character.toNat = false := by simp [isLowSurrogate]; omega
      simp [scanString, hexUnit?_control control, noHigh, noLow, Char.ofNat_toNat]
    case isFalse noControl =>
      rw [List.singleton_append, scanString]
      · simp [show character ≠ '"' from noQuote, noControl]
      · rintro _ _ _ _ _ rfl
        exact absurd rfl noBackslash
      · rintro _ _ rfl
        exact absurd rfl noBackslash
  all_goals rfl

/-- A written string is read up to its closing quote. -/
theorem scanString_written (characters rest : List Char) :
    scanString none (characters.flatMap escape ++ '"' :: rest) = some (characters, rest) := by
  induction characters with
  | nil => rfl
  | cons character characters ih =>
      rw [List.flatMap_cons, List.append_assoc, scanString_escape, ih]
      rfl

/-! ## Parts of a number -/

/-- No digit stands at the front. -/
def NoDigit (rest : List Char) : Prop :=
  ∀ next ∈ rest.head?, ¬next.isDigit

/-- Nothing at the front makes a number longer. -/
def Ends (rest : List Char) : Prop :=
  ∀ next ∈ rest.head?, ¬next.isDigit ∧ next ≠ '.' ∧ ¬isMark next

theorem Ends.noDigit {rest : List Char} (ends : Ends rest) : NoDigit rest :=
  fun next first => (ends next first).1

/-- The minus sign of a number. -/
def splitMinus : List Char → Bool × List Char
  | '-' :: rest => (true, rest)
  | rest => (false, rest)

/-- The digits in front of the point: a zero stands alone. -/
def spanWhole : List Char → List Nat × List Char
  | '0' :: rest => ([0], rest)
  | rest => spanDigits rest

/-- The digits behind a point. -/
def readFraction : List Char → Option (List Nat × List Char)
  | '.' :: rest =>
      match spanDigits rest with
      | ([], _) => none
      | (digits, rest) => some (digits, rest)
  | rest => some ([], rest)

/-- What is read behind the whole part of a number. -/
def scanBehind (negative : Bool) (whole : List Nat × List Char) : Option (Number × List Char) := do
  if whole.1.isEmpty then none
  let (fraction, rest) ← match whole.2 with
    | '.' :: rest =>
        match spanDigits rest with
        | ([], _) => none
        | (digits, rest) => some (digits, rest)
    | rest => some ([], rest)
  let (exponent, rest) ← readExponent rest
  let number ← numberOf? ⟨negative, whole.1, fraction, exponent.getD 0⟩
    (fraction.isEmpty && exponent.isNone)
  return (number, rest)

theorem scanNumber_eq (characters : List Char) :
    scanNumber characters =
      scanBehind (splitMinus characters).1 (spanWhole (splitMinus characters).2) := rfl

/-- Parts of a number are read one after the other. -/
theorem scanBehind_eq_some {negative : Bool} {whole : List Nat} {behind rest : List Char}
    {number : Number} :
    scanBehind negative (whole, behind) = some (number, rest) ↔ whole ≠ [] ∧
      ∃ fraction pointed exponent, readFraction behind = some (fraction, pointed) ∧
        readExponent pointed = some (exponent, rest) ∧
        numberOf? ⟨negative, whole, fraction, exponent.getD 0⟩
          (fraction.isEmpty && exponent.isNone) = some number := by
  by_cases written : whole = []
  · simp [scanBehind, written]
  have parts : scanBehind negative (whole, behind) = (readFraction behind).bind fun fraction =>
      (readExponent fraction.2).bind fun exponent =>
        (numberOf? ⟨negative, whole, fraction.1, exponent.1.getD 0⟩
          (fraction.1.isEmpty && exponent.1.isNone)).bind fun number =>
            some (number, exponent.2) := by
    have isWritten : whole.isEmpty = false := by simpa using written
    simp only [scanBehind, isWritten, readFraction, Bool.false_eq_true, if_false]
    split
    · split <;> rfl
    · rfl
  rw [parts]
  simp only [Option.bind_eq_some_iff, Option.some.injEq, Prod.mk.injEq, Prod.exists]
  constructor
  · rintro ⟨fraction, pointed, readsFraction, exponent, rest, readsExponent, _, reads, rfl, rfl⟩
    exact ⟨written, fraction, pointed, exponent, readsFraction, readsExponent, reads⟩
  · rintro ⟨-, fraction, pointed, exponent, readsFraction, readsExponent, reads⟩
    exact ⟨fraction, pointed, readsFraction, exponent, rest, readsExponent, number, reads, rfl, rfl⟩

theorem spanDigits_eq {characters rest : List Char} {digits : List Nat}
    (spanned : spanDigits characters = (digits, rest)) :
    ∃ front, characters = front ++ rest ∧ AreDigits front ∧ front.map digitValue = digits := by
  obtain ⟨front, behind, rfl, areDigits, stops⟩ := Decimal.exists_digits characters
  rw [Decimal.spanDigits_append areDigits stops] at spanned
  obtain ⟨rfl, rfl⟩ := Prod.mk.inj spanned
  exact ⟨front, rfl, areDigits, rfl⟩

/-- The whole part is read whatever stands behind it, unless that is a digit. -/
theorem spanWhole_front {characters rest : List Char} {whole : List Nat}
    (spanned : spanWhole characters = (whole, rest)) (written : whole ≠ []) :
    ∃ front, characters = front ++ rest ∧ (∃ first more, front = first :: more ∧ first.isDigit) ∧
      ∀ other, NoDigit other → spanWhole (front ++ other) = (whole, other) := by
  unfold spanWhole at spanned
  split at spanned
  case h_1 rest =>
    obtain ⟨rfl, rfl⟩ := Prod.mk.inj spanned
    exact ⟨['0'], rfl, ⟨'0', [], rfl, rfl⟩, fun other _ => rfl⟩
  case h_2 noZero =>
    obtain ⟨front, rfl, areDigits, rfl⟩ := spanDigits_eq spanned
    obtain ⟨first, more, rfl⟩ := List.exists_cons_of_ne_nil (l := front) (by simpa using written)
    refine ⟨_, rfl, ⟨first, more, rfl, areDigits first List.mem_cons_self⟩, fun other stops => ?_⟩
    rw [spanWhole, Decimal.spanDigits_append areDigits stops]
    rintro behind same
    exact noZero (more ++ rest) (by rw [List.cons_append, (List.cons.inj same).1])

/-- The digits behind a point are read whatever stands behind them, unless that is a digit, or a
point where there is none yet. -/
theorem readFraction_front {characters rest : List Char} {fraction : List Nat}
    (reads : readFraction characters = some (fraction, rest)) :
    ∃ front, characters = front ++ rest ∧ (∀ first ∈ front.head?, first = '.') ∧
      ∀ other, NoDigit other → (∀ next ∈ other.head?, next ≠ '.') →
        readFraction (front ++ other) = some (fraction, other) := by
  unfold readFraction at reads
  split at reads
  case h_1 behind =>
    split at reads
    case h_1 => cases reads
    case h_2 written spanned =>
      obtain ⟨rfl, rfl⟩ := Prod.mk.inj (Option.some.inj reads)
      obtain ⟨front, rfl, areDigits, rfl⟩ := spanDigits_eq spanned
      refine ⟨'.' :: front, rfl, by simp, fun other stops _ => ?_⟩
      rw [List.cons_append, readFraction, Decimal.spanDigits_append areDigits stops]
      cases front with
      | nil => exact absurd rfl written
      | cons => rfl
  case h_2 =>
    obtain ⟨rfl, rfl⟩ := Prod.mk.inj (Option.some.inj reads)
    refine ⟨[], rfl, by simp, fun other _ noPoint => ?_⟩
    rw [List.nil_append, readFraction]
    rintro rest rfl
    exact noPoint '.' rfl rfl

/-- The digits of an exponent. -/
def exponentOf (negative : Bool) (characters : List Char) : Option (Option Int × List Char) :=
  match spanDigits characters with
  | ([], _) => none
  | (digits, rest) =>
      let size : Int := digitsValue digits
      some (some (if negative then -size else size), rest)

theorem exponentOf_front {negative : Bool} {characters rest : List Char} {exponent : Option Int}
    (reads : exponentOf negative characters = some (exponent, rest)) :
    ∃ front, characters = front ++ rest ∧ (∃ first more, front = first :: more ∧ first.isDigit) ∧
      ∀ other, NoDigit other → exponentOf negative (front ++ other) = some (exponent, other) := by
  unfold exponentOf at reads
  split at reads
  case h_1 => cases reads
  case h_2 written spanned =>
    obtain ⟨rfl, rfl⟩ := Prod.mk.inj (Option.some.inj reads)
    obtain ⟨front, rfl, areDigits, rfl⟩ := spanDigits_eq spanned
    obtain ⟨first, more, rfl⟩ := List.exists_cons_of_ne_nil (l := front) (by simpa using written)
    refine ⟨_, rfl, ⟨first, more, rfl, areDigits first List.mem_cons_self⟩, fun other stops => ?_⟩
    rw [exponentOf, Decimal.spanDigits_append areDigits stops]
    rfl

theorem readExponent_of_unmarked {characters : List Char}
    (unmarked : ∀ first ∈ characters.head?, ¬isMark first) :
    readExponent characters = some (none, characters) := by
  cases characters with
  | nil => rfl
  | cons first rest => exact if_neg (unmarked first rfl)

theorem readExponent_signed {mark sign : Char} (marked : isMark mark) (signed : isSign sign)
    (rest : List Char) :
    readExponent (mark :: sign :: rest) = exponentOf (sign == '-') rest := by
  obtain rfl | rfl : sign = '+' ∨ sign = '-' := by simpa [isSign] using signed
  · exact if_pos marked
  · exact if_pos marked

theorem readExponent_unsigned {mark : Char} {rest : List Char} (marked : isMark mark)
    (unsigned : ∀ first ∈ rest.head?, ¬isSign first) :
    readExponent (mark :: rest) = exponentOf false rest := by
  cases rest with
  | nil => exact if_pos marked
  | cons first rest =>
      have noSign := unsigned first rfl
      rw [readExponent, if_pos]
      · rfl
      · exact marked
      · rintro _ same
        exact noSign (by rw [(List.cons.inj same).1]; rfl)
      · rintro _ same
        exact noSign (by rw [(List.cons.inj same).1]; rfl)

/-- An exponent is read whatever stands behind it, unless that makes it longer. -/
theorem readExponent_front {characters rest : List Char} {exponent : Option Int}
    (reads : readExponent characters = some (exponent, rest)) :
    ∃ front, characters = front ++ rest ∧ (∀ first ∈ front.head?, isMark first) ∧
      ∀ other, Ends other → readExponent (front ++ other) = some (exponent, other) := by
  by_cases unmarked : ∀ first ∈ characters.head?, ¬isMark first
  · rw [readExponent_of_unmarked unmarked] at reads
    obtain ⟨rfl, rfl⟩ := Prod.mk.inj (Option.some.inj reads)
    exact ⟨[], rfl, by simp, fun other ends =>
      readExponent_of_unmarked fun first isFirst => (ends first isFirst).2.2⟩
  · obtain ⟨mark, behind, rfl, marked⟩ : ∃ mark behind, characters = mark :: behind ∧ isMark mark := by
      cases characters with
      | nil => simp at unmarked
      | cons mark behind => exact ⟨mark, behind, rfl, by simpa using unmarked⟩
    by_cases unsigned : ∀ first ∈ behind.head?, ¬isSign first
    · rw [readExponent_unsigned marked unsigned] at reads
      obtain ⟨front, rfl, ⟨first, more, rfl, isDigit⟩, again⟩ := exponentOf_front reads
      refine ⟨mark :: first :: more, rfl, by simpa using marked, fun other ends => ?_⟩
      have noSign : ∀ next ∈ (first :: more ++ other).head?, ¬isSign next := by
        rintro next ⟨⟩
        exact Decimal.not_isSign_of_isDigit isDigit
      exact (readExponent_unsigned marked noSign).trans (again other ends.noDigit)
    · obtain ⟨sign, behind, rfl, signed⟩ :
          ∃ sign more, behind = sign :: more ∧ isSign sign := by
        cases behind with
        | nil => simp at unsigned
        | cons sign behind => exact ⟨sign, behind, rfl, by simpa using unsigned⟩
      rw [readExponent_signed marked signed] at reads
      obtain ⟨front, rfl, -, again⟩ := exponentOf_front reads
      refine ⟨mark :: sign :: front, rfl, by simpa using marked, fun other ends => ?_⟩
      exact (readExponent_signed marked signed _).trans (again other ends.noDigit)

/-! ## Numbers -/

theorem splitMinus_front (characters : List Char) :
    ∃ minus, characters = minus ++ (splitMinus characters).2 ∧ (∀ first ∈ minus.head?, first = '-') ∧
      ∀ first rest, first.isDigit →
        splitMinus (minus ++ first :: rest) = ((splitMinus characters).1, first :: rest) := by
  unfold splitMinus
  split
  case h_1 rest => exact ⟨['-'], rfl, by simp, fun _ _ _ => rfl⟩
  case h_2 =>
    refine ⟨[], rfl, by simp, fun first rest isDigit => ?_⟩
    split
    case h_1 same => exact absurd ((List.cons.inj same).1 ▸ isDigit) (by decide)
    case h_2 => rfl

/-- A number is read whatever stands behind it, unless that makes it longer. It starts with a minus
sign or a digit. -/
theorem scanNumber_front {characters rest : List Char} {number : Number}
    (reads : scanNumber characters = some (number, rest)) :
    ∃ front, characters = front ++ rest ∧
      (∃ first more, front = first :: more ∧ (first = '-' ∨ first.isDigit)) ∧
      ∀ other, Ends other → scanNumber (front ++ other) = some (number, other) := by
  obtain ⟨minus, split, isMinus, again⟩ := splitMinus_front characters
  rw [scanNumber_eq] at reads
  generalize spanned : spanWhole (splitMinus characters).2 = whole at reads
  obtain ⟨whole, behind⟩ := whole
  obtain ⟨written, fraction, pointed, exponent, readsFraction, readsExponent, isNumber⟩ :=
    scanBehind_eq_some.mp reads
  obtain ⟨wholeText, isWhole, ⟨first, more, rfl, isDigit⟩, againWhole⟩ :=
    spanWhole_front spanned written
  obtain ⟨fractionText, isFraction, startsFraction, againFraction⟩ := readFraction_front readsFraction
  obtain ⟨exponentText, rfl, startsExponent, againExponent⟩ := readExponent_front readsExponent
  refine ⟨minus ++ (first :: more ++ (fractionText ++ exponentText)), ?_, ?_, fun other ends => ?_⟩
  · rw [split, isWhole, isFraction]
    simp only [List.append_assoc]
  · cases minus with
    | nil => exact ⟨first, _, rfl, .inr isDigit⟩
    | cons sign behind => exact ⟨sign, _, rfl, .inl (isMinus sign rfl)⟩
  · -- What stands behind each part does not belong to it.
    have behindExponent : NoDigit (exponentText ++ other) ∧
        ∀ next ∈ (exponentText ++ other).head?, next ≠ '.' := by
      cases exponentText with
      | nil => exact ⟨ends.noDigit, fun next isFirst => (ends next isFirst).2.1⟩
      | cons mark behind =>
          have marked : isMark mark := startsExponent mark rfl
          constructor
          · rintro next ⟨⟩ isDigit
            exact Decimal.not_isMark_of_isDigit isDigit marked
          · rintro next ⟨⟩ rfl
            exact absurd marked (by decide)
    have behindWhole : NoDigit (fractionText ++ (exponentText ++ other)) := by
      cases fractionText with
      | nil => exact behindExponent.1
      | cons point behind =>
          rintro next ⟨⟩ isDigit
          exact absurd (startsFraction point rfl ▸ isDigit) (by decide)
    have readsSign := again first (more ++ (fractionText ++ (exponentText ++ other))) isDigit
    have readsWhole := againWhole _ behindWhole
    simp only [List.cons_append, List.append_assoc] at readsSign readsWhole ⊢
    rw [scanNumber_eq, scanBehind_eq_some, readsSign, readsWhole]
    exact ⟨written, fraction, _, exponent,
      againFraction _ behindExponent.1 behindExponent.2, againExponent _ ends, isNumber⟩

theorem head?_toDigits {number : Nat} (positive : 0 < number) :
    ∀ first ∈ (Nat.toDigits 10 number).head?, first ≠ '0' := by
  induction number using Nat.strongRecOn with
  | ind number ih =>
      by_cases small : number < 10
      · rw [Nat.toDigits_of_lt_base small]
        rintro first ⟨⟩ isZero
        rw [Nat.digitChar_eq_zero] at isZero
        omega
      · rw [Nat.toDigits_of_base_le (by decide) (by omega), List.head?_append_of_ne_nil _
          Nat.toDigits_ne_nil]
        exact ih (number / 10) (by omega) (by omega)

theorem digitText_starts (number : Nat) :
    ∃ first more, (digitText number).toList = first :: more ∧ first.isDigit := by
  rw [digitText, String.toList_ofList]
  obtain ⟨first, more, starts⟩ := List.exists_cons_of_ne_nil (Nat.toDigits_ne_nil (n := number))
  have member : first ∈ Nat.toDigits 10 number := by
    rw [starts]
    exact List.mem_cons_self
  exact ⟨first, more, starts, Nat.isDigit_of_mem_toDigits (by decide) (by decide) member⟩

/-- The digits of a whole number are read as its whole part. -/
theorem spanWhole_digitText (number : Nat) {rest : List Char} (stops : NoDigit rest) :
    ∃ digits, digits ≠ [] ∧ digitsValue digits = number ∧
      spanWhole ((digitText number).toList ++ rest) = (digits, rest) := by
  have areDigits : AreDigits (Nat.toDigits 10 number) := fun _ member =>
    Nat.isDigit_of_mem_toDigits (by decide) (by decide) member
  have value : digitsValue ((Nat.toDigits 10 number).map digitValue) = number := by
    rw [digitsValue, List.foldl_map]
    have digits := Nat.ofDigitChars_ten_toDigits (n := number)
    rw [Nat.ofDigitChars_eq_foldl] at digits
    simpa [Nat.mul_comm, digitValue] using digits
  refine ⟨(Nat.toDigits 10 number).map digitValue, by simp, value, ?_⟩
  rw [digitText, String.toList_ofList]
  by_cases positive : 0 < number
  · have noZero := head?_toDigits positive
    rw [spanWhole, Decimal.spanDigits_append areDigits stops]
    intro behind same
    cases digits : Nat.toDigits 10 number with
    | nil => exact Nat.toDigits_ne_nil digits
    | cons first more =>
        rw [digits, List.cons_append] at same
        exact noZero first (by rw [digits]; rfl) (List.cons.inj same).1
  · obtain rfl : number = 0 := by omega
    rfl

/-- A whole number of thirty-two bits is read as it was. -/
theorem scanNumber_integer {value : Int} (fits : Decimal.fitsThirtyTwoBits value) {rest : List Char}
    (ends : Ends rest) :
    scanNumber ((Number.integer value).write.toList ++ rest) = some (.integer value, rest) := by
  obtain ⟨digits, written, isSize, spanned⟩ := spanWhole_digitText value.natAbs ends.noDigit
  have noFraction : readFraction rest = some ([], rest) := by
    rw [readFraction]
    rintro behind rfl
    exact (ends '.' rfl).2.1 rfl
  have noExponent := readExponent_of_unmarked fun first isFirst => (ends first isFirst).2.2
  obtain ⟨low, high⟩ : -2147483648 ≤ value ∧ value ≤ 2147483647 := by
    simpa [Decimal.fitsThirtyTwoBits] using fits
  have signed : splitMinus ((Number.integer value).write.toList ++ rest) =
      (decide (value < 0), (digitText value.natAbs).toList ++ rest) := by
    rw [Number.write, String.toList_append, List.append_assoc]
    split
    case isTrue negative => simp [splitMinus, negative]
    case isFalse positive =>
      obtain ⟨first, more, starts, isDigit⟩ := digitText_starts value.natAbs
      simp only [positive, decide_false, String.toList_empty, List.nil_append, starts]
      rw [List.cons_append, splitMinus]
      intro behind same
      exact absurd ((List.cons.inj same).1 ▸ isDigit) (by decide)
  rw [scanNumber_eq, signed]
  dsimp only
  rw [spanned, scanBehind_eq_some]
  refine ⟨written, [], rest, none, noFraction, noExponent, ?_⟩
  rw [numberOf?, isSize]
  by_cases negative : value < 0
  · have size : -(value.natAbs : Int) = value := by omega
    have small : value.natAbs ≤ Nat.pow 2 63 := by norm_num; omega
    have positive : 0 < value.natAbs := by omega
    simp [negative, size, small, positive, -Nat.cast_natAbs]
  · have size : (value.natAbs : Int) = value := by omega
    have small : value.natAbs < Nat.pow 2 64 := by norm_num; omega
    simp [negative, size, small, -Nat.cast_natAbs]

/-! ## Tokens -/

/-- Cutting a text into tokens, without a bound. -/
inductive Scans : List Char → List Token → Prop
  | done : Scans [] []
  | space {first : Char} {rest : List Char} {tokens : List Token} (isBlank : isSpace first)
      (scans : Scans rest tokens) : Scans (first :: rest) tokens
  | token {first : Char} {more rest : List Char} {token : Token} {tokens : List Token}
      (visible : isSpace first = false) (found : scanToken (first :: more) = some (token, rest))
      (shorter : rest.length ≤ more.length) (scans : Scans rest tokens) :
      Scans (first :: more) (token :: tokens)

namespace Scans

variable {characters rest : List Char} {tokens : List Token}

/-- As many steps as there are characters are enough. -/
theorem scanTokens (scans : Scans characters tokens) {steps : Nat}
    (enough : characters.length ≤ steps) : Json.scanTokens steps characters = some tokens := by
  induction scans generalizing steps with
  | done => cases steps <;> rfl
  | space isBlank _ ih =>
      obtain ⟨steps, rfl⟩ : ∃ fewer, steps = fewer + 1 := ⟨steps - 1, by simp at enough; omega⟩
      rw [Json.scanTokens, if_pos isBlank]
      exact ih (by simpa using enough)
  | token visible found shorter _ ih =>
      obtain ⟨steps, rfl⟩ : ∃ fewer, steps = fewer + 1 := ⟨steps - 1, by simp at enough; omega⟩
      rw [Json.scanTokens, if_neg (by simp [visible]), found]
      simp only [Option.bind_eq_bind, Option.bind_some]
      rw [ih (shorter.trans (by simpa using enough))]
      rfl

/-- Blanks stand in front of anything. -/
theorem spaces {blanks : List Char} (areBlank : ∀ blank ∈ blanks, isSpace blank)
    (scans : Scans rest tokens) : Scans (blanks ++ rest) tokens := by
  induction blanks with
  | nil => exact scans
  | cons first blanks ih =>
      obtain ⟨here, later⟩ := List.forall_mem_cons.mp areBlank
      exact .space here (ih later)

theorem newLine (depth : Nat) (scans : Scans rest tokens) :
    Scans ((Json.newLine depth).toList ++ rest) tokens := by
  refine scans.spaces ?_
  rw [Json.newLine, String.toList_ofList, List.forall_mem_cons]
  exact ⟨rfl, fun blank member => by rw [List.eq_of_mem_replicate member]; rfl⟩

/-- A text that is read as one token is cut out in front of anything. -/
theorem cons {first : Char} {more : List Char} {token : Token} (visible : isSpace first = false)
    (found : scanToken (first :: (more ++ rest)) = some (token, rest))
    (scans : Scans rest tokens) : Scans (first :: (more ++ rest)) (token :: tokens) :=
  .token visible found (by simp) scans

/-- A fixed text is cut out as its token. -/
theorem fixed {text : String} {first : Char} {more : List Char} {token : Token}
    (spelled : text.toList = first :: more) (visible : isSpace first = false)
    (found : ∀ rest, scanToken (first :: (more ++ rest)) = some (token, rest))
    (scans : Scans rest tokens) : Scans (text.toList ++ rest) (token :: tokens) := by
  rw [spelled, List.cons_append]
  exact scans.cons visible (found rest)

theorem quoted (text : String) (scans : Scans rest tokens) :
    Scans ((Json.quoted text).toList ++ rest) (.string text :: tokens) := by
  rw [Json.quoted, String.toList_ofList, List.cons_append]
  refine scans.cons rfl ?_
  rw [List.append_assoc, List.singleton_append]
  change (scanString none _).map _ = _
  rw [scanString_written]
  simp

end Scans

/-- A text that starts like a number is read as one. -/
theorem scanToken_of_number {first : Char} (starts : first = '-' ∨ first.isDigit)
    (more : List Char) :
    scanToken (first :: more) =
      (scanNumber (first :: more)).map fun read => (.number read.1, read.2) := by
  unfold scanToken
  split
  case h_11 => rfl
  all_goals
    rename_i same
    obtain ⟨rfl, -⟩ := List.cons.inj same
    exact absurd starts (by decide)

theorem scanNumber_of_token {characters rest : List Char} {number : Number}
    (found : scanToken characters = some (.number number, rest)) :
    scanNumber characters = some (number, rest) := by
  unfold scanToken at found
  split at found
  case h_10 =>
    obtain ⟨read, -, same⟩ := Option.map_eq_some_iff.mp found
    cases same
  case h_11 =>
    obtain ⟨⟨number, rest⟩, reads, same⟩ := Option.map_eq_some_iff.mp found
    cases same
    exact reads
  all_goals cases found

theorem scanTokens_eq_nil {steps : Nat} {characters : List Char}
    (scanned : scanTokens steps characters = some []) : ∀ blank ∈ characters, isSpace blank := by
  induction steps generalizing characters with
  | zero =>
      cases characters with
      | nil => simp
      | cons => cases scanned
  | succ steps ih =>
      cases characters with
      | nil => simp
      | cons first rest =>
          rw [scanTokens] at scanned
          split at scanned
          case isTrue isBlank => exact List.forall_mem_cons.mpr ⟨isBlank, ih scanned⟩
          case isFalse =>
            simp [Option.bind_eq_some_iff] at scanned

theorem isSpace_ends {blank : Char} (isBlank : isSpace blank) (rest : List Char) :
    Ends (blank :: rest) := by
  rintro next ⟨⟩
  simp only [isSpace, Bool.or_eq_true, beq_iff_eq] at isBlank
  rcases isBlank with ((rfl | rfl) | rfl) | rfl <;> decide

/-- A number is read as it was in front of whatever does not make it longer. -/
def Number.Survives (number : Number) : Prop :=
  ∀ {rest : List Char} {tokens : List Token}, Ends rest → Scans rest tokens →
    Scans (number.write.toList ++ rest) (.number number :: tokens)

/-- A text that is cut into one number is cut into it in front of anything. -/
theorem Scans.append_number {steps : Nat} {characters rest : List Char} {number : Number}
    {tokens : List Token} (scanned : Json.scanTokens steps characters = some [.number number])
    (ends : Ends rest) (scans : Scans rest tokens) :
    Scans (characters ++ rest) (.number number :: tokens) := by
  induction steps generalizing characters with
  | zero => cases characters <;> cases scanned
  | succ steps ih =>
      cases characters with
      | nil => cases scanned
      | cons first more =>
          rw [Json.scanTokens] at scanned
          split at scanned
          case isTrue isBlank => exact .space isBlank (ih scanned)
          case isFalse visible =>
            simp only [Option.bind_eq_bind, Option.bind_eq_some_iff, Option.pure_def,
              Option.some.injEq, List.cons.injEq, Prod.exists] at scanned
            obtain ⟨_, behind, found, _, blank, rfl, rfl⟩ := scanned
            have blanks := scanTokens_eq_nil blank
            obtain ⟨front, split, ⟨start, others, rfl, starts⟩, again⟩ :=
              scanNumber_front (scanNumber_of_token found)
            rw [List.cons_append] at split
            obtain ⟨rfl, rfl⟩ := List.cons.inj split
            have endsBehind : Ends (behind ++ rest) := by
              cases behind with
              | nil => exact ends
              | cons next behind => exact isSpace_ends (blanks next List.mem_cons_self) _
            rw [List.cons_append, List.append_assoc]
            refine (scans.spaces blanks).cons (by simpa using visible) ?_
            rw [scanToken_of_number starts]
            have reads := again _ endsBehind
            rw [List.cons_append] at reads
            rw [reads]
            rfl

/-- Whole numbers of thirty-two bits survive. -/
theorem Number.survives_integer {value : Int} (fits : Decimal.fitsThirtyTwoBits value) :
    (Number.integer value).Survives := by
  intro rest tokens ends scans
  obtain ⟨first, more, written, starts⟩ : ∃ first more,
      (Number.integer value).write.toList = first :: more ∧ (first = '-' ∨ first.isDigit) := by
    obtain ⟨first, more, digits, isDigit⟩ := digitText_starts value.natAbs
    rw [write, String.toList_append, digits]
    split
    · exact ⟨'-', _, rfl, .inl rfl⟩
    · exact ⟨first, more, rfl, .inr isDigit⟩
  have visible : isSpace first = false := by
    rcases starts with rfl | isDigit
    · rfl
    · rw [Bool.eq_false_iff]
      intro isBlank
      exact (isSpace_ends isBlank [] first rfl).1 isDigit
  have reads := scanNumber_integer fits ends
  rw [written, List.cons_append] at reads ⊢
  refine scans.cons visible ?_
  rw [scanToken_of_number starts, reads]
  rfl

end ComponentModel.Json
