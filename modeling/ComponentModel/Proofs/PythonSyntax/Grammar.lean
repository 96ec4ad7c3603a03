import ComponentModel.Proofs.CSyntax.Signs

/-!
# The grammar of powers in Python

Basic arithmetic with signs and powers, cut into the tokens of C: a power is written with two stars
side by side. Sums and products group to the left. Below them are the signs, which stand in front of
a power, and the powers, whose exponent is anything that may stand behind a sign. So powers group to
the right, and bind tighter than a sign on their left, but looser than one on their right. The
grammar is unambiguous.
-/

namespace ComponentModel.PythonSyntax

open CSyntax (Binary Symbol Token isChain_append)
open CSyntax.Signed (Basic)

/-- An expression as the language reads it. Parentheses leave no trace. -/
inductive Expression where
  | literal (text : String)
  | word (text : String)
  | negative (operand : Expression)
  | power (base exponent : Expression)
  | basic (operator : Basic) (left right : Expression)
  deriving Repr, DecidableEq

/-- The token of a product. -/
abbrev star : Token :=
  .symbol (.binary .times)

/-- The token of a sign. -/
abbrev sign : Token :=
  .symbol (.binary .minus)

/-- The expression that a list of tokens is at a level of precedence. -/
inductive Reads : Nat → List Token → Expression → Prop where
  | tighter {level : Nat} {tokens : List Token} {expression : Expression}
      (reads : Reads (level + 1) tokens expression) : Reads level tokens expression
  | basic {level : Nat} (operator : Basic) (isLevel : operator.binary.level = level)
      {first second : List Token} {left right : Expression}
      (readsLeft : Reads level first left) (readsRight : Reads (level + 1) second right) :
      Reads level (first ++ .symbol (.binary operator.binary) :: second)
        (.basic operator left right)
  | negative {tokens : List Token} {operand : Expression} (reads : Reads 7 tokens operand) :
      Reads 7 (sign :: tokens) (.negative operand)
  | power {first second : List Token} {base exponent : Expression} (readsBase : Reads 9 first base)
      (readsExponent : Reads 7 second exponent) :
      Reads 8 (first ++ star :: star :: second) (.power base exponent)
  | literal (text : String) : Reads 9 [.literal text] (.literal text)
  | word (text : String) : Reads 9 [.word text] (.word text)
  | group {tokens : List Token} {expression : Expression} (reads : Reads 5 tokens expression) :
      Reads 9 (.symbol .opening :: (tokens ++ [.symbol .closing])) expression

theorem Reads.isChain {level : Nat} {tokens : List Token} {expression : Expression}
    (reads : Reads level tokens expression) : tokens.IsChain Token.Separated := by
  induction reads with
  | tighter _ inductionHypothesis => exact inductionHypothesis
  | basic _ _ _ _ leftHypothesis rightHypothesis =>
      exact isChain_append leftHypothesis rightHypothesis
  | negative _ inductionHypothesis => exact isChain_append .nil inductionHypothesis
  | power _ _ baseHypothesis exponentHypothesis =>
      exact isChain_append baseHypothesis (isChain_append .nil exponentHypothesis)
  | literal | word => exact .singleton _
  | group _ inductionHypothesis =>
      exact isChain_append .nil (isChain_append inductionHypothesis .nil)

theorem Reads.level_le {level : Nat} {tokens : List Token} {expression : Expression}
    (reads : Reads level tokens expression) : level ≤ 9 := by
  induction reads with
  | basic operator isLevel =>
      have := operator.level_bounds
      omega
  | _ => omega

/-- No operator is looser than those of sums. -/
theorem Reads.of_loose {level : Nat} {tokens : List Token} {expression : Expression}
    (reads : Reads level tokens expression) (loose : level ≤ 5) : Reads 5 tokens expression := by
  induction reads with
  | tighter reads inductionHypothesis =>
      obtain rfl | looser := Nat.eq_or_lt_of_le loose
      · exact .tighter reads
      · exact inductionHypothesis looser
  | basic operator isLevel readsLeft readsRight =>
      obtain rfl := Nat.le_antisymm loose (isLevel ▸ operator.level_bounds.1)
      exact .basic operator isLevel readsLeft readsRight
  | _ => omega

theorem reads_zero_iff {tokens : List Token} {expression : Expression} :
    Reads 0 tokens expression ↔ Reads 5 tokens expression where
  mp reads := reads.of_loose (Nat.zero_le 5)
  mpr reads := .tighter (.tighter (.tighter (.tighter (.tighter reads))))

/-! ## Reading from the left -/

/-- Where a reader from the left stands: before an operand of a level, or behind an expression
that may go on at a level. -/
inductive Position where
  | operand (level : Nat)
  | behind (level : Nat) (left : Expression)

/-- What a reader from the left makes of the tokens, and the tokens that it leaves. -/
inductive Parses : Position → List Token → Expression → List Token → Prop where
  | operand {level : Nat} {tokens middle rest : List Token} {left whole : Expression}
      (loose : level ≤ 6) (parsesLeft : Parses (.operand (level + 1)) tokens left middle)
      (parses : Parses (.behind level left) middle whole rest) :
      Parses (.operand level) tokens whole rest
  | stop {level : Nat} {rest : List Token} {left : Expression}
      (stops : ∀ operator : Basic, operator.binary.level = level →
        rest.head? ≠ some (.symbol (.binary operator.binary))) :
      Parses (.behind level left) rest left rest
  | basic {level : Nat} (operator : Basic) (isLevel : operator.binary.level = level)
      {tokens middle rest : List Token} {left right whole : Expression}
      (parsesRight : Parses (.operand (level + 1)) tokens right middle)
      (parses : Parses (.behind level (.basic operator left right)) middle whole rest) :
      Parses (.behind level left) (.symbol (.binary operator.binary) :: tokens) whole rest
  | negative {tokens rest : List Token} {operand : Expression}
      (parses : Parses (.operand 7) tokens operand rest) :
      Parses (.operand 7) (sign :: tokens) (.negative operand) rest
  | unsigned {tokens rest : List Token} {expression : Expression}
      (noSign : tokens.head? ≠ some sign) (parses : Parses (.operand 8) tokens expression rest) :
      Parses (.operand 7) tokens expression rest
  | power {tokens middle rest : List Token} {base exponent : Expression}
      (parsesBase : Parses (.operand 9) tokens base (star :: star :: middle))
      (parsesExponent : Parses (.operand 7) middle exponent rest) :
      Parses (.operand 8) tokens (.power base exponent) rest
  | primary {tokens rest : List Token} {expression : Expression}
      (noPower : ¬[star, star] <+: rest) (parses : Parses (.operand 9) tokens expression rest) :
      Parses (.operand 8) tokens expression rest
  | literal (text : String) {rest : List Token} :
      Parses (.operand 9) (.literal text :: rest) (.literal text) rest
  | word (text : String) {rest : List Token} :
      Parses (.operand 9) (.word text :: rest) (.word text) rest
  | group {tokens rest : List Token} {expression : Expression}
      (parses : Parses (.operand 5) tokens expression (.symbol .closing :: rest)) :
      Parses (.operand 9) (.symbol .opening :: tokens) expression rest

theorem Parses.deterministic {position : Position} {tokens rest otherRest : List Token}
    {expression other : Expression} (parses : Parses position tokens expression rest)
    (parsesOther : Parses position tokens other otherRest) :
    expression = other ∧ rest = otherRest := by
  induction parses generalizing other otherRest with
  | operand _ _ _ leftHypothesis inductionHypothesis =>
      cases parsesOther with
      | operand _ parsesLeft parses =>
          obtain ⟨rfl, rfl⟩ := leftHypothesis parsesLeft
          exact inductionHypothesis parses
      | _ => omega
  | stop stops =>
      cases parsesOther with
      | stop => exact ⟨rfl, rfl⟩
      | basic operator isLevel => exact absurd rfl (stops operator isLevel)
  | basic operator isLevel _ _ rightHypothesis inductionHypothesis =>
      generalize spelled : Token.symbol (.binary operator.binary) = token at parsesOther
      cases parsesOther with
      | stop stops => exact absurd (by rw [← spelled]; rfl) (stops operator isLevel)
      | basic otherOperator _ parsesRight parses =>
          obtain rfl : operator = otherOperator := by
            refine Basic.binary_injective ?_
            simpa using spelled
          obtain ⟨rfl, rfl⟩ := rightHypothesis parsesRight
          exact inductionHypothesis parses
  | negative _ inductionHypothesis =>
      cases parsesOther with
      | operand => omega
      | negative parses =>
          obtain ⟨rfl, rfl⟩ := inductionHypothesis parses
          exact ⟨rfl, rfl⟩
      | unsigned noSign => simp at noSign
  | unsigned noSign _ inductionHypothesis =>
      cases parsesOther with
      | operand => omega
      | negative => simp at noSign
      | unsigned _ parses => exact inductionHypothesis parses
  | power _ _ baseHypothesis exponentHypothesis =>
      cases parsesOther with
      | operand => omega
      | power parsesBase parsesExponent =>
          obtain ⟨rfl, same⟩ := baseHypothesis parsesBase
          obtain rfl := List.tail_eq_of_cons_eq (List.tail_eq_of_cons_eq same)
          obtain ⟨rfl, rfl⟩ := exponentHypothesis parsesExponent
          exact ⟨rfl, rfl⟩
      | primary noPower parses =>
          obtain ⟨-, rfl⟩ := baseHypothesis parses
          exact absurd ⟨_, rfl⟩ noPower
  | primary noPower _ inductionHypothesis =>
      cases parsesOther with
      | operand => omega
      | power parsesBase =>
          obtain ⟨-, rfl⟩ := inductionHypothesis parsesBase
          exact absurd ⟨_, rfl⟩ noPower
      | primary _ parses => exact inductionHypothesis parses
  | literal =>
      cases parsesOther with
      | operand => omega
      | literal => exact ⟨rfl, rfl⟩
  | word =>
      cases parsesOther with
      | operand => omega
      | word => exact ⟨rfl, rfl⟩
  | group _ inductionHypothesis =>
      cases parsesOther with
      | operand => omega
      | group parses =>
          obtain ⟨rfl, same⟩ := inductionHypothesis parses
          exact ⟨rfl, List.tail_eq_of_cons_eq same⟩

/-! ## Unambiguity -/

/-- Whether the tokens behind an expression of a level leave it as it is. -/
structure Ends (level : Nat) (tokens : List Token) : Prop where
  operator : ∀ operator : Basic, tokens.head? = some (.symbol (.binary operator.binary)) →
    operator.binary.level ≤ level
  noPower : level ≤ 8 → ¬[star, star] <+: tokens

theorem Ends.mono {level wanted : Nat} {tokens : List Token} (ends : Ends level tokens)
    (tighter : level ≤ wanted) : Ends wanted tokens where
  operator operator first := Nat.le_trans (ends.operator operator first) tighter
  noPower isLevel := ends.noPower (Nat.le_trans tighter isLevel)

/-- Behind an expression, tokens that end it at a level end the reading at a tighter level. -/
theorem Ends.stop {level wanted : Nat} {tokens : List Token} (ends : Ends level tokens)
    (apart : level < wanted ∨ 7 ≤ wanted) (expression : Expression) :
    Parses (.behind wanted expression) tokens expression tokens := by
  refine .stop fun operator isLevel first => ?_
  have := ends.operator operator first
  have := operator.level_bounds
  omega

/-- At the tightest levels nothing goes on behind an expression. -/
theorem Ends.done {level : Nat} {tokens final : List Token} {expression whole : Expression}
    (ends : Ends level tokens) (tight : 7 ≤ level)
    (parses : Parses (.behind level expression) tokens whole final) :
    expression = whole ∧ tokens = final :=
  (ends.stop (.inr tight) expression).deterministic parses

theorem ends_of_noOperator (tokens : List Token)
    (noOperator : ∀ operator : Binary, tokens.head? ≠ some (.symbol (.binary operator)))
    (level : Nat) (expression : Expression) :
    Ends level tokens ∧ Parses (.behind level expression) tokens expression tokens := by
  refine ⟨⟨fun operator first => absurd first (noOperator operator.binary), fun _ => ?_⟩,
    .stop fun operator _ => noOperator operator.binary⟩
  rintro ⟨behind, rfl⟩
  exact noOperator .times rfl

/-- No expression starts with a star, and only a signed one with a minus. -/
theorem Reads.start {level : Nat} {tokens : List Token} {expression : Expression}
    (reads : Reads level tokens expression) :
    ∃ token rest, tokens = token :: rest ∧ token ≠ star ∧ (8 ≤ level → token ≠ sign) := by
  induction reads with
  | tighter _ inductionHypothesis =>
      obtain ⟨token, rest, rfl, noStar, noSign⟩ := inductionHypothesis
      exact ⟨token, rest, rfl, noStar, fun tight => noSign (Nat.le_succ_of_le tight)⟩
  | basic operator isLevel _ _ leftHypothesis =>
      obtain ⟨token, rest, rfl, noStar, noSign⟩ := leftHypothesis
      exact ⟨token, _, List.cons_append, noStar, noSign⟩
  | power _ _ baseHypothesis =>
      obtain ⟨token, rest, rfl, noStar, noSign⟩ := baseHypothesis
      exact ⟨token, _, List.cons_append, noStar, fun _ => noSign (by decide)⟩
  | negative => exact ⟨_, _, rfl, by decide, by decide⟩
  | literal | word | group => exact ⟨_, _, rfl, by simp, by simp⟩

-- The operators of one level stand behind each other, and the reader has taken the first operand
-- when it comes to the second operator. So what it makes of the rest, given the expression, is an
-- argument of the induction.
theorem Reads.parses {level : Nat} {tokens : List Token} {expression : Expression}
    (reads : Reads level tokens expression) {rest final : List Token} {whole : Expression}
    (ends : Ends level rest) (parses : Parses (.behind level expression) rest whole final) :
    Parses (.operand level) (tokens ++ rest) whole final := by
  induction reads generalizing rest final whole with
  | @tighter level tokens expression reads inductionHypothesis =>
      have parsesTighter := inductionHypothesis (ends.mono (Nat.le_succ level))
        (ends.stop (.inl (Nat.lt_succ_self level)) expression)
      by_cases loose : level ≤ 6
      · exact .operand loose parsesTighter parses
      · obtain ⟨rfl, rfl⟩ := ends.done (Nat.lt_of_not_le loose) parses
        obtain ⟨token, behind, rfl, -, noSign⟩ := reads.start
        obtain rfl | rfl : level = 7 ∨ level = 8 := by
          have := reads.level_le
          omega
        · exact .unsigned (by simpa using noSign (Nat.le_refl 8)) parsesTighter
        · exact .primary (ends.noPower (Nat.le_refl 8)) parsesTighter
  | @basic level operator isLevel first second left right _ readsRight leftHypothesis
      rightHypothesis =>
      have parsesRight := rightHypothesis (ends.mono (Nat.le_succ level))
        (ends.stop (.inl (Nat.lt_succ_self level)) right)
      obtain ⟨token, behind, rfl, noStar, -⟩ := readsRight.start
      rw [List.append_assoc]
      refine leftHypothesis ⟨?_, ?_⟩ (.basic operator isLevel parsesRight parses)
      · intro other first
        obtain rfl : operator = other := Basic.binary_injective (by simpa using first)
        exact Nat.le_of_eq isLevel
      · simp [Ne.symm noStar]
  | @negative _ operand _ inductionHypothesis =>
      obtain ⟨rfl, rfl⟩ := ends.done (by decide) parses
      exact .negative (inductionHypothesis ends (ends.stop (.inr (by decide)) operand))
  | @power first second base exponent _ _ baseHypothesis exponentHypothesis =>
      obtain ⟨rfl, rfl⟩ := ends.done (by decide) parses
      have endsBase : Ends 9 (star :: star :: (second ++ rest)) := by
        refine ⟨fun operator _ => ?_, nofun⟩
        have := operator.level_bounds
        omega
      have endsExponent : Ends 7 rest := by
        refine ⟨fun operator _ => ?_, fun _ => ends.noPower (Nat.le_refl 8)⟩
        have := operator.level_bounds
        omega
      rw [List.append_assoc]
      exact .power (baseHypothesis endsBase (endsBase.stop (.inr (by decide)) base))
        (exponentHypothesis endsExponent (endsExponent.stop (.inr (by decide)) exponent))
  | literal text =>
      obtain ⟨rfl, rfl⟩ := ends.done (by decide) parses
      exact .literal text
  | word text =>
      obtain ⟨rfl, rfl⟩ := ends.done (by decide) parses
      exact .word text
  | @group _ expression _ inductionHypothesis =>
      obtain ⟨rfl, rfl⟩ := ends.done (by decide) parses
      obtain ⟨closing, stops⟩ :=
        ends_of_noOperator (.symbol .closing :: rest) (by simp) 5 expression
      simp only [List.cons_append, List.append_assoc, List.nil_append]
      exact .group (inductionHypothesis closing stops)

/-- The tokens of an expression are read in one way only. -/
theorem Reads.unique {tokens : List Token} {expression other : Expression}
    (reads : Reads 5 tokens expression) (readsOther : Reads 5 tokens other) :
    expression = other := by
  obtain ⟨ends, stops⟩ := ends_of_noOperator [] (by simp) 5 expression
  obtain ⟨-, stopsOther⟩ := ends_of_noOperator [] (by simp) 5 other
  exact ((reads.parses ends stops).deterministic (readsOther.parses ends stopsOther)).1

end ComponentModel.PythonSyntax
