import ComponentModel.Proofs.CSyntax.Levels

/-!
# The grammar of expressions in C

Expressions are read by levels of precedence. From the loosest to the tightest: the conditional,
which groups to the right, then `||`, `&&`, the equalities, the other comparisons, sums, products,
which group to the left, then the negation, and last what needs no parentheses. The grammar is
unambiguous: the tokens of an expression are read in one way only.
-/

namespace ComponentModel.CSyntax

/-- An expression as the language reads it. Parentheses leave no trace. -/
inductive Expression where
  | literal (text : String)
  | word (text : String)
  | unaryCall (function : String) (argument : Expression)
  | binaryCall (function : String) (first second : Expression)
  | negation (operand : Expression)
  | binary (operator : Binary) (left right : Expression)
  | conditional (condition yes no : Expression)
  deriving Repr, DecidableEq

/-- The level of a binary operator. -/
def Binary.level : Binary → Nat
  | disjunction => 1
  | conjunction => 2
  | equal | unequal => 3
  | less | atMost | greater | atLeast => 4
  | plus | minus => 5
  | times | divide => 6

theorem Binary.level_bounds (operator : Binary) : 1 ≤ operator.level ∧ operator.level ≤ 6 := by
  cases operator <;> decide

/-- The expression that a list of tokens is at a level of precedence. -/
inductive Reads : Nat → List Token → Expression → Prop where
  | tighter {level : Nat} {tokens : List Token} {expression : Expression}
      (reads : Reads (level + 1) tokens expression) : Reads level tokens expression
  | conditional {first second third : List Token} {condition yes no : Expression}
      (readsCondition : Reads 1 first condition) (readsYes : Reads 0 second yes)
      (readsNo : Reads 0 third no) :
      Reads 0 (first ++ .symbol .question :: (second ++ .symbol .colon :: third))
        (.conditional condition yes no)
  | binary {level : Nat} (operator : Binary) (isLevel : operator.level = level)
      {first second : List Token} {left right : Expression}
      (readsLeft : Reads level first left) (readsRight : Reads (level + 1) second right) :
      Reads level (first ++ .symbol (.binary operator) :: second) (.binary operator left right)
  | negation {tokens : List Token} {operand : Expression} (reads : Reads 7 tokens operand) :
      Reads 7 (.symbol .negation :: tokens) (.negation operand)
  | literal (text : String) : Reads 8 [.literal text] (.literal text)
  | word (text : String) : Reads 8 [.word text] (.word text)
  | group {tokens : List Token} {expression : Expression} (reads : Reads 0 tokens expression) :
      Reads 8 (.symbol .opening :: (tokens ++ [.symbol .closing])) expression
  | unaryCall (function : String) {tokens : List Token} {argument : Expression}
      (reads : Reads 0 tokens argument) :
      Reads 8 (.word function :: .symbol .opening :: (tokens ++ [.symbol .closing]))
        (.unaryCall function argument)
  | binaryCall (function : String) {first second : List Token} {left right : Expression}
      (readsFirst : Reads 0 first left) (readsSecond : Reads 0 second right) :
      Reads 8 (.word function :: .symbol .opening ::
          (first ++ .symbol .comma :: (second ++ [.symbol .closing])))
        (.binaryCall function left right)

theorem Reads.level_le {level : Nat} {tokens : List Token} {expression : Expression}
    (reads : Reads level tokens expression) : level ≤ 8 := by
  induction reads with
  | binary operator isLevel =>
    have := operator.level_bounds
    omega
  | _ => omega

theorem Reads.isChain {level : Nat} {tokens : List Token} {expression : Expression}
    (reads : Reads level tokens expression) : tokens.IsChain Token.Separated := by
  induction reads with
  | tighter _ inductionHypothesis => exact inductionHypothesis
  | conditional _ _ _ conditionHypothesis yesHypothesis noHypothesis =>
    exact isChain_append conditionHypothesis (isChain_append yesHypothesis noHypothesis)
  | binary _ _ _ _ leftHypothesis rightHypothesis =>
    exact isChain_append leftHypothesis rightHypothesis
  | negation _ inductionHypothesis => exact isChain_append .nil inductionHypothesis
  | literal text => exact .singleton _
  | word text => exact .singleton _
  | group _ inductionHypothesis =>
    exact isChain_append .nil (isChain_append inductionHypothesis .nil)
  | unaryCall function _ inductionHypothesis =>
    exact isChain_append (.singleton (.word function)) (isChain_append inductionHypothesis .nil)
  | binaryCall function _ _ firstHypothesis secondHypothesis =>
    exact isChain_append (.singleton (.word function))
      (isChain_append firstHypothesis (isChain_append secondHypothesis .nil))

/-! ## Reading from the left -/

/-- Where a reader from the left stands: before an operand of a level, or behind an expression
that may go on at a level. -/
inductive Position where
  | operand (level : Nat)
  | behind (level : Nat) (left : Expression)

/-- Whether a token goes on with an expression of a level. -/
def Token.GoesOn (level : Nat) : Token → Prop
  | .symbol (.binary operator) => operator.level = level
  | .symbol .question => level = 0
  | _ => False

/-- What a reader from the left makes of the tokens, and the tokens that it leaves. -/
inductive Parses : Position → List Token → Expression → List Token → Prop where
  | operand {level : Nat} {tokens middle rest : List Token} {left whole : Expression}
      (loose : level ≤ 6) (parsesLeft : Parses (.operand (level + 1)) tokens left middle)
      (parses : Parses (.behind level left) middle whole rest) :
      Parses (.operand level) tokens whole rest
  | stop {level : Nat} {rest : List Token} {left : Expression}
      (stops : ∀ token ∈ rest.head?, ¬token.GoesOn level) :
      Parses (.behind level left) rest left rest
  | binary {level : Nat} (operator : Binary) (isLevel : operator.level = level)
      {tokens middle rest : List Token} {left right whole : Expression}
      (parsesRight : Parses (.operand (level + 1)) tokens right middle)
      (parses : Parses (.behind level (.binary operator left right)) middle whole rest) :
      Parses (.behind level left) (.symbol (.binary operator) :: tokens) whole rest
  | conditional {tokens middle rest : List Token} {condition yes no : Expression}
      (parsesYes : Parses (.operand 0) tokens yes (.symbol .colon :: middle))
      (parsesNo : Parses (.operand 0) middle no rest) :
      Parses (.behind 0 condition) (.symbol .question :: tokens)
        (.conditional condition yes no) rest
  | negation {tokens rest : List Token} {operand : Expression}
      (parses : Parses (.operand 7) tokens operand rest) :
      Parses (.operand 7) (.symbol .negation :: tokens) (.negation operand) rest
  | primary {tokens rest : List Token} {expression : Expression}
      (noNegation : tokens.head? ≠ some (.symbol .negation))
      (parses : Parses (.operand 8) tokens expression rest) :
      Parses (.operand 7) tokens expression rest
  | literal (text : String) {rest : List Token} :
      Parses (.operand 8) (.literal text :: rest) (.literal text) rest
  | word (text : String) {rest : List Token} (noCall : rest.head? ≠ some (.symbol .opening)) :
      Parses (.operand 8) (.word text :: rest) (.word text) rest
  | group {tokens rest : List Token} {expression : Expression}
      (parses : Parses (.operand 0) tokens expression (.symbol .closing :: rest)) :
      Parses (.operand 8) (.symbol .opening :: tokens) expression rest
  | unaryCall (function : String) {tokens rest : List Token} {argument : Expression}
      (parses : Parses (.operand 0) tokens argument (.symbol .closing :: rest)) :
      Parses (.operand 8) (.word function :: .symbol .opening :: tokens)
        (.unaryCall function argument) rest
  | binaryCall (function : String) {tokens middle rest : List Token} {left right : Expression}
      (parsesFirst : Parses (.operand 0) tokens left (.symbol .comma :: middle))
      (parsesSecond : Parses (.operand 0) middle right (.symbol .closing :: rest)) :
      Parses (.operand 8) (.word function :: .symbol .opening :: tokens)
        (.binaryCall function left right) rest

theorem Parses.deterministic {position : Position} {tokens rest otherRest : List Token}
    {expression other : Expression} (parses : Parses position tokens expression rest)
    (parsesOther : Parses position tokens other otherRest) :
    expression = other ∧ rest = otherRest := by
  induction parses generalizing other otherRest with
  | operand _ _ _ leftHypothesis inductionHypothesis =>
    cases parsesOther with
    | operand _ parsesLeft parses =>
      obtain ⟨rfl, rfl⟩ := leftHypothesis parsesLeft
      exact inductionHypothesis parses
    | _ => omega
  | stop stops =>
    cases parsesOther with
    | stop => exact ⟨rfl, rfl⟩
    | binary operator isLevel => exact absurd isLevel (stops _ rfl)
    | conditional => exact absurd rfl (stops _ rfl)
  | binary operator isLevel _ _ rightHypothesis inductionHypothesis =>
    cases parsesOther with
    | stop stops => exact absurd isLevel (stops _ rfl)
    | binary _ _ parsesRight parses =>
      obtain ⟨rfl, rfl⟩ := rightHypothesis parsesRight
      exact inductionHypothesis parses
  | conditional _ _ yesHypothesis noHypothesis =>
    cases parsesOther with
    | stop stops => exact absurd rfl (stops _ rfl)
    | conditional parsesYes parsesNo =>
      obtain ⟨rfl, same⟩ := yesHypothesis parsesYes
      obtain rfl := List.tail_eq_of_cons_eq same
      obtain ⟨rfl, rfl⟩ := noHypothesis parsesNo
      exact ⟨rfl, rfl⟩
  | negation _ inductionHypothesis =>
    cases parsesOther with
    | operand => omega
    | negation parses =>
      obtain ⟨rfl, rfl⟩ := inductionHypothesis parses
      exact ⟨rfl, rfl⟩
    | primary noNegation => simp at noNegation
  | primary noNegation _ inductionHypothesis =>
    cases parsesOther with
    | operand => omega
    | negation => simp at noNegation
    | primary _ parses => exact inductionHypothesis parses
  | literal =>
    cases parsesOther with
    | operand => omega
    | literal => exact ⟨rfl, rfl⟩
  | word _ noCall =>
    cases parsesOther with
    | operand => omega
    | word => exact ⟨rfl, rfl⟩
    | unaryCall => simp at noCall
    | binaryCall => simp at noCall
  | group _ inductionHypothesis =>
    cases parsesOther with
    | operand => omega
    | group parses =>
      obtain ⟨rfl, same⟩ := inductionHypothesis parses
      exact ⟨rfl, List.tail_eq_of_cons_eq same⟩
  | unaryCall _ _ inductionHypothesis =>
    cases parsesOther with
    | operand => omega
    | word _ noCall => simp at noCall
    | unaryCall _ parses =>
      obtain ⟨rfl, same⟩ := inductionHypothesis parses
      exact ⟨rfl, List.tail_eq_of_cons_eq same⟩
    | binaryCall _ parsesFirst =>
      obtain ⟨-, same⟩ := inductionHypothesis parsesFirst
      simp at same
  | binaryCall _ _ _ firstHypothesis secondHypothesis =>
    cases parsesOther with
    | operand => omega
    | word _ noCall => simp at noCall
    | unaryCall _ parses =>
      obtain ⟨-, same⟩ := firstHypothesis parses
      simp at same
    | binaryCall _ parsesFirst parsesSecond =>
      obtain ⟨rfl, same⟩ := firstHypothesis parsesFirst
      obtain rfl := List.tail_eq_of_cons_eq same
      obtain ⟨rfl, same⟩ := secondHypothesis parsesSecond
      exact ⟨rfl, List.tail_eq_of_cons_eq same⟩

/-! ## Unambiguity -/

/-- Whether the tokens behind an expression of a level leave it as it is. -/
def Ends (level : Nat) (tokens : List Token) : Prop :=
  ∀ token ∈ tokens.head?, token ≠ .symbol .opening ∧
    (token = .symbol .question → 0 < level) ∧
    ∀ operator, token = .symbol (.binary operator) → operator.level ≤ level

theorem Ends.mono {level wanted : Nat} {tokens : List Token} (ends : Ends level tokens)
    (tighter : level ≤ wanted) : Ends wanted tokens := by
  intro token first
  obtain ⟨noCall, noQuestion, noOperator⟩ := ends token first
  exact ⟨noCall, fun isQuestion => Nat.lt_of_lt_of_le (noQuestion isQuestion) tighter,
    fun operator isOperator => Nat.le_trans (noOperator operator isOperator) tighter⟩

/-- Behind an expression, tokens that end it at a level end the reading at a tighter level, and at
the outermost one. -/
theorem Ends.stop {level wanted : Nat} {tokens : List Token} (ends : Ends level tokens)
    (apart : level < wanted ∨ 7 ≤ wanted ∨ level = wanted ∧ wanted = 0) (expression : Expression) :
    Parses (.behind wanted expression) tokens expression tokens := by
  refine .stop fun token first goesOn => ?_
  obtain ⟨-, noQuestion, noOperator⟩ := ends token first
  cases token with
  | symbol symbol =>
    cases symbol with
    | binary operator =>
      have isLevel : operator.level = wanted := goesOn
      have := operator.level_bounds
      have := noOperator operator rfl
      omega
    | question =>
      have isLevel : wanted = 0 := goesOn
      have := noQuestion rfl
      omega
    | _ => exact goesOn
  | _ => exact goesOn

theorem Ends.stop_zero {tokens : List Token} (ends : Ends 0 tokens) (expression : Expression) :
    Parses (.behind 0 expression) tokens expression tokens :=
  ends.stop (.inr (.inr ⟨rfl, rfl⟩)) expression

/-- At the tightest levels nothing goes on behind an expression. -/
theorem Ends.done {level : Nat} {tokens final : List Token} {expression whole : Expression}
    (ends : Ends level tokens) (tight : 7 ≤ level)
    (parses : Parses (.behind level expression) tokens whole final) :
    expression = whole ∧ tokens = final :=
  (ends.stop (.inr (.inl tight)) expression).deterministic parses

theorem ends_of_separates (level : Nat) {symbol : Symbol} (tokens : List Token)
    (separates : symbol = .colon ∨ symbol = .comma ∨ symbol = .closing) :
    Ends level (.symbol symbol :: tokens) := by
  intro token first
  obtain rfl : .symbol symbol = token := by simpa using first
  obtain rfl | rfl | rfl := separates <;> simp

theorem Reads.noNegation {tokens : List Token} {expression : Expression}
    (reads : Reads 8 tokens expression) (rest : List Token) :
    (tokens ++ rest).head? ≠ some (.symbol .negation) := by
  cases reads with
  | tighter reads => exact absurd reads.level_le (by decide)
  | binary operator isLevel =>
    have := operator.level_bounds
    omega
  | _ => simp

-- The operators of one level stand behind each other, and the reader has taken the first operand
-- when it comes to the second operator. So what it makes of the rest, given the expression, is an
-- argument of the induction.
theorem Reads.parses {level : Nat} {tokens : List Token} {expression : Expression}
    (reads : Reads level tokens expression) {rest final : List Token} {whole : Expression}
    (ends : Ends level rest) (parses : Parses (.behind level expression) rest whole final) :
    Parses (.operand level) (tokens ++ rest) whole final := by
  induction reads generalizing rest final whole with
  | @tighter level tokens expression reads inductionHypothesis =>
    have parsesTighter := inductionHypothesis (ends.mono (Nat.le_succ level))
      (ends.stop (.inl (Nat.lt_succ_self level)) expression)
    by_cases loose : level ≤ 6
    · exact .operand loose parsesTighter parses
    · obtain rfl : level = 7 := by
        have := reads.level_le
        omega
      obtain ⟨rfl, rfl⟩ := ends.done (Nat.le_refl 7) parses
      exact .primary (reads.noNegation _) parsesTighter
  | @conditional first second third condition yes no _ _ _ conditionHypothesis yesHypothesis
      noHypothesis =>
    obtain ⟨rfl, rfl⟩ := (ends.stop_zero _).deterministic parses
    have colon := ends_of_separates 0 (third ++ rest) (.inl rfl)
    have parsesYes := yesHypothesis colon (colon.stop_zero yes)
    have parsesNo := noHypothesis ends (ends.stop_zero no)
    simp only [List.append_assoc, List.cons_append]
    refine .operand (by decide) (conditionHypothesis ?_ (.stop ?_))
      (.conditional parsesYes parsesNo)
    · simp [Ends]
    · simp [Token.GoesOn]
  | @binary level operator isLevel first second left right _ _ leftHypothesis rightHypothesis =>
    have parsesRight := rightHypothesis (ends.mono (Nat.le_succ level))
      (ends.stop (.inl (Nat.lt_succ_self level)) right)
    rw [List.append_assoc]
    refine leftHypothesis ?_ (.binary operator isLevel parsesRight parses)
    simp [Ends, isLevel]
  | @negation _ operand _ inductionHypothesis =>
    obtain ⟨rfl, rfl⟩ := ends.done (by decide) parses
    exact .negation (inductionHypothesis ends (ends.stop (.inr (.inl (by decide))) operand))
  | literal text =>
    obtain ⟨rfl, rfl⟩ := ends.done (by decide) parses
    exact .literal text
  | word text =>
    obtain ⟨rfl, rfl⟩ := ends.done (by decide) parses
    exact .word text fun called => (ends _ called).1 rfl
  | @group _ expression _ inductionHypothesis =>
    obtain ⟨rfl, rfl⟩ := ends.done (by decide) parses
    have closing := ends_of_separates 0 rest (.inr (.inr rfl))
    simp only [List.cons_append, List.append_assoc, List.nil_append]
    exact .group (inductionHypothesis closing (closing.stop_zero expression))
  | @unaryCall function _ argument _ inductionHypothesis =>
    obtain ⟨rfl, rfl⟩ := ends.done (by decide) parses
    have closing := ends_of_separates 0 rest (.inr (.inr rfl))
    simp only [List.cons_append, List.append_assoc, List.nil_append]
    exact .unaryCall function (inductionHypothesis closing (closing.stop_zero argument))
  | @binaryCall function first second left right _ _ firstHypothesis secondHypothesis =>
    obtain ⟨rfl, rfl⟩ := ends.done (by decide) parses
    have comma := ends_of_separates 0 (second ++ .symbol .closing :: rest) (.inr (.inl rfl))
    have closing := ends_of_separates 0 rest (.inr (.inr rfl))
    simp only [List.cons_append, List.append_assoc, List.nil_append]
    exact .binaryCall function (firstHypothesis comma (comma.stop_zero left))
      (secondHypothesis closing (closing.stop_zero right))

/-- The tokens of an expression are read in one way only. -/
theorem Reads.unique {tokens : List Token} {expression other : Expression}
    (reads : Reads 0 tokens expression) (readsOther : Reads 0 tokens other) :
    expression = other := by
  have ends : Ends 0 [] := by simp [Ends]
  have parses := reads.parses ends (ends.stop_zero expression)
  exact (parses.deterministic (readsOther.parses ends (ends.stop_zero other))).1

end ComponentModel.CSyntax
