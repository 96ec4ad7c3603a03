import Mathlib.Data.List.Basic

/-!
# Conditional expressions in Python

A conditional `a if c else b` has two keywords between three expressions. The first and the second
are operands: keywords stand only inside brackets there. The third is any expression, so
conditionals group to the right. What an operand is made of plays no part in this: it is cut into
words, which are names, keywords and numbers, and other characters one by one. The keywords outside
of brackets then tell in one way only how the conditionals are nested.
-/

namespace ComponentModel.PythonSyntax.Conditional

/-! ## Tokens -/

/-- A word, or another character that is no blank. -/
inductive Token where
  | word (text : String)
  | mark (character : Char)
  deriving Repr, DecidableEq

/-- Whether a character may stand in a name, a keyword or a number. -/
def isWordCharacter (character : Char) : Bool :=
  character.isAlphanum || character == '_' || character == '.'

/-- The token of a word, unless it is empty. -/
def wordTokens (word : List Char) : List Token :=
  if word.isEmpty then [] else [.word (String.ofList word)]

/-- The token of a character that stands in no word. -/
def markTokens (character : Char) : List Token :=
  if character == ' ' then [] else [.mark character]

/-- Cut characters into tokens, with the word that stands in front of them. -/
def cut : (word : List Char) → List Char → List Token
  | word, [] => wordTokens word
  | word, character :: rest =>
      if isWordCharacter character then cut (word ++ [character]) rest
      else wordTokens word ++ (markTokens character ++ cut [] rest)

/-- The tokens of a text. Words are as long as possible. -/
def tokens (text : String) : List Token :=
  cut [] text.toList

theorem cut_append {front behind : List Char}
    (apart : ∀ character ∈ behind.head?, isWordCharacter character = false) (word : List Char) :
    cut word (front ++ behind) = cut word front ++ cut [] behind := by
  induction front generalizing word with
  | nil =>
      cases behind with
      | nil => simp [cut, wordTokens]
      | cons character rest =>
          have isMark := apart character rfl
          simp [cut, isMark, wordTokens]
  | cons character front inductionHypothesis =>
      simp only [List.cons_append, cut]
      split
      · exact inductionHypothesis _
      · simp [inductionHypothesis]

theorem cut_mark {mark : Char} (isMark : isWordCharacter mark = false) (front behind : List Char) :
    cut [] (front ++ mark :: behind) = cut [] front ++ (markTokens mark ++ cut [] behind) := by
  rw [cut_append (by simpa using isMark)]
  simp [cut, isMark, wordTokens]

/-- Whether a text starts and ends with a character that stands in no word. -/
def IsSymbol (text : String) : Prop :=
  text.toList.head?.any (!isWordCharacter ·) ∧ text.toList.getLast?.any (!isWordCharacter ·)

instance (text : String) : Decidable (IsSymbol text) :=
  inferInstanceAs (Decidable (_ ∧ _))

theorem tokens_between (left : String) {symbol : String} (isSymbol : IsSymbol symbol)
    (right : String) :
    tokens (left ++ symbol ++ right) = tokens left ++ tokens symbol ++ tokens right := by
  obtain ⟨starts, ends⟩ := isSymbol
  have apart : ∀ behind, ∀ character ∈ (symbol.toList ++ behind).head?,
      isWordCharacter character = false := by
    cases spelled : symbol.toList with
    | nil => simp [spelled] at starts
    | cons => simpa [spelled] using starts
  have isLast : ∃ front last, symbol.toList = front ++ [last] ∧ isWordCharacter last = false := by
    obtain ⟨last, isLast, isMark⟩ := (Option.any_eq_true _ _).mp ends
    obtain ⟨front, spelled⟩ := List.getLast?_eq_some_iff.mp isLast
    exact ⟨front, last, spelled, by simpa using isMark⟩
  have symbolAlone : ∀ behind,
      cut [] (symbol.toList ++ behind) = cut [] symbol.toList ++ cut [] behind := by
    intro behind
    obtain ⟨front, last, spelled, isMark⟩ := isLast
    rw [spelled, List.append_assoc, List.singleton_append, cut_mark isMark, cut_mark isMark]
    simp [cut, wordTokens]
  simp only [tokens, String.toList_append, List.append_assoc]
  rw [cut_append (apart _), symbolAlone]

/-- A text that starts with a character other than a blank has tokens. -/
theorem tokens_ne_nil {text : String} (starts : text.toList.head?.any (· != ' ')) :
    tokens text ≠ [] := by
  have wordFirst : ∀ characters word, word ≠ [] → cut word characters ≠ [] := by
    intro characters
    induction characters with
    | nil => simp [cut, wordTokens]
    | cons character characters inductionHypothesis =>
        intro word nonempty
        rw [cut]
        split
        · exact inductionHypothesis _ (by simp)
        · simp [wordTokens, nonempty]
  obtain ⟨first, isFirst, noBlank⟩ := (Option.any_eq_true _ _).mp starts
  obtain ⟨rest, spelled⟩ := List.head?_eq_some_iff.mp isFirst
  rw [tokens, spelled, cut]
  split
  · exact wordFirst rest _ (by simp)
  · have noBlank : first ≠ ' ' := by simpa using noBlank
    simp [wordTokens, markTokens, noBlank]

/-! ## Brackets -/

/-- The words that are keywords of a conditional. -/
def keywords : List String :=
  ["if", "else"]

/-- The number of open brackets behind a token. Outside of brackets there is no closing one, and no
keyword. -/
def Token.depth? (depth : Nat) : Token → Option Nat
  | .word text => if depth = 0 ∧ text ∈ keywords then none else some depth
  | .mark character =>
      if character ∈ ['(', '['] then some (depth + 1)
      else if character ∈ [')', ']'] then (if depth = 0 then none else some (depth - 1))
      else some depth

/-- The number of open brackets behind some tokens. -/
def depth? : (depth : Nat) → List Token → Option Nat
  | depth, [] => some depth
  | depth, token :: rest => (token.depth? depth).bind (depth? · rest)

/-- Whether all brackets are closed and keywords stand only inside brackets. -/
def IsClosed (tokens : List Token) : Prop :=
  depth? 0 tokens = some 0

instance (tokens : List Token) : Decidable (IsClosed tokens) :=
  inferInstanceAs (Decidable (_ = _))

/-- Whether some tokens may stand inside brackets. -/
def FitsInside (tokens : List Token) : Prop :=
  ∀ depth, depth? (depth + 1) tokens = some (depth + 1)

theorem depth?_append (depth : Nat) (first second : List Token) :
    depth? depth (first ++ second) = (depth? depth first).bind (depth? · second) := by
  induction first generalizing depth with
  | nil => rfl
  | cons token first inductionHypothesis =>
      simp only [List.cons_append, depth?]
      cases token.depth? depth with
      | none => rfl
      | some next => exact inductionHypothesis next

/-- What may stand somewhere may also stand inside more brackets. -/
theorem Token.depth?_add {token : Token} {depth next : Nat}
    (isNext : token.depth? depth = some next) (more : Nat) : token.depth? (depth + more) = some (next + more) := by
  cases token with
  | word text =>
      simp only [Token.depth?] at isNext ⊢
      split at isNext
      case isTrue => cases isNext
      case isFalse plain =>
          obtain rfl := Option.some.inj isNext
          exact if_neg fun keyword => plain ⟨by omega, keyword.2⟩
  | mark character =>
      simp only [Token.depth?] at isNext ⊢
      split at isNext
      case isTrue opens =>
          obtain rfl := Option.some.inj isNext
          rw [if_pos opens]
          congr 1
          omega
      case isFalse noOpening =>
          rw [if_neg noOpening]
          split at isNext
          case isTrue closes =>
              rw [if_pos closes]
              split at isNext
              case isTrue => cases isNext
              case isFalse inside =>
                  obtain rfl := Option.some.inj isNext
                  rw [if_neg (by omega)]
                  congr 1
                  omega
          case isFalse noClosing =>
              obtain rfl := Option.some.inj isNext
              rw [if_neg noClosing]

theorem depth?_add {tokens : List Token} {depth last : Nat}
    (isLast : depth? depth tokens = some last) (more : Nat) : depth? (depth + more) tokens = some (last + more) := by
  induction tokens generalizing depth with
  | nil =>
      obtain rfl := Option.some.inj isLast
      rfl
  | cons token tokens inductionHypothesis =>
      obtain ⟨next, isNext, isLast⟩ := Option.bind_eq_some_iff.mp isLast
      rw [depth?, Token.depth?_add isNext, Option.bind_some]
      exact inductionHypothesis isLast

theorem IsClosed.append {first second : List Token} (closed : IsClosed first)
    (closedSecond : IsClosed second) : IsClosed (first ++ second) := by
  rw [IsClosed, depth?_append, closed]
  exact closedSecond

theorem IsClosed.fitsInside {tokens : List Token} (closed : IsClosed tokens) :
    FitsInside tokens := by
  intro depth
  simpa [Nat.add_comm] using depth?_add closed (depth + 1)

theorem FitsInside.append {first second : List Token} (fits : FitsInside first)
    (fitsSecond : FitsInside second) : FitsInside (first ++ second) := by
  intro depth
  rw [depth?_append, fits depth]
  exact fitsSecond depth

theorem fitsInside_word (text : String) : FitsInside [.word text] := by
  intro depth
  simp [depth?, Token.depth?]

/-- Characters of which none is a bracket, and none stands in a keyword only. -/
theorem isClosed_cut {word characters : List Char}
    (plain : ∀ character ∈ word ++ characters, character ∉ "()[]fl".toList) :
    IsClosed (cut word characters) := by
  have closedWord {word : List Char} (plain : ∀ character ∈ word, character ∉ "()[]fl".toList) :
      IsClosed (wordTokens word) := by
    rw [wordTokens]
    split
    case isTrue => rfl
    case isFalse =>
        have noKeyword : String.ofList word ∉ keywords := by
          intro isKeyword
          have spelled : word = "if".toList ∨ word = "else".toList := by
            simpa [keywords, ← String.toList_inj] using isKeyword
          rcases spelled with rfl | rfl
          · exact plain 'f' (by decide) (by decide)
          · exact plain 'l' (by decide) (by decide)
        simp [IsClosed, depth?, Token.depth?, noKeyword]
  induction characters generalizing word with
  | nil => exact closedWord (by simpa using plain)
  | cons character characters inductionHypothesis =>
      rw [cut]
      split
      case isTrue => exact inductionHypothesis (by simpa using plain)
      case isFalse =>
          obtain ⟨plainWord, plainMark, plainRest⟩ : (∀ character ∈ word, _) ∧ _ ∧ _ := by
            simpa only [List.forall_mem_append, List.forall_mem_cons] using plain
          have closedMark : IsClosed (markTokens character) := by
            rw [markTokens]
            split
            case isTrue => rfl
            case isFalse =>
                have noBracket : character ∉ ['(', '['] ∧ character ∉ [')', ']'] := by
                  simp_all
                rw [IsClosed, depth?, Token.depth?, if_neg noBracket.1, if_neg noBracket.2]
                rfl
          exact (closedWord plainWord).append (closedMark.append (inductionHypothesis plainRest))

theorem FitsInside.bracketed {tokens : List Token} (fits : FitsInside tokens)
    {opening closing : Char} (opens : opening ∈ ['(', '[']) (closes : closing ∈ [')', ']']) :
    IsClosed (.mark opening :: (tokens ++ [.mark closing])) := by
  have noOpening : closing ∉ ['(', '['] := by
    simp only [List.mem_cons, List.not_mem_nil, or_false] at closes
    rcases closes with rfl | rfl <;> decide
  rw [IsClosed, depth?, Token.depth?, if_pos opens, Option.bind_some, depth?_append, fits 0,
    Option.bind_some, depth?, Token.depth?, if_neg noOpening, if_pos closes]
  rfl

/-! ## Reading -/

/-- Whether some tokens may be an operand of a conditional. -/
structure IsOperand (tokens : List Token) : Prop where
  nonempty : tokens ≠ []
  closed : IsClosed tokens

instance (tokens : List Token) : Decidable (IsOperand tokens) :=
  decidable_of_iff (tokens ≠ [] ∧ IsClosed tokens)
    ⟨fun ⟨nonempty, closed⟩ => ⟨nonempty, closed⟩, fun ⟨nonempty, closed⟩ => ⟨nonempty, closed⟩⟩

/-- A conditional, or the tokens of an expression that is none. -/
inductive Choice where
  | leaf (tokens : List Token)
  | choice (yes condition : List Token) (no : Choice)
  deriving Repr, DecidableEq

/-- The conditional that a list of tokens is. -/
inductive Reads : List Token → Choice → Prop where
  | leaf {tokens : List Token} (isOperand : IsOperand tokens) : Reads tokens (.leaf tokens)
  | choice {yes condition rest : List Token} {no : Choice} (isYes : IsOperand yes)
      (isCondition : IsOperand condition) (reads : Reads rest no) :
      Reads (yes ++ .word "if" :: (condition ++ .word "else" :: rest)) (.choice yes condition no)

theorem Reads.fitsInside {tokens : List Token} {choice : Choice} (reads : Reads tokens choice) :
    FitsInside tokens := by
  induction reads with
  | leaf isOperand => exact isOperand.closed.fitsInside
  | choice isYes isCondition _ inductionHypothesis =>
      have behind := isCondition.closed.fitsInside.append
        ((fitsInside_word "else").append inductionHypothesis)
      exact isYes.closed.fitsInside.append ((fitsInside_word "if").append behind)

theorem not_isClosed {front behind : List Token} {keyword : String} (isKeyword : keyword ∈ keywords)
    (closed : IsClosed front) : ¬IsClosed (front ++ .word keyword :: behind) := by
  rw [IsClosed, depth?_append, closed, Option.bind_some, depth?, Token.depth?,
    if_pos ⟨rfl, isKeyword⟩]
  simp

theorem eq_nil_of_isClosed {front more behind others : List Token} {keyword : String}
    (isKeyword : keyword ∈ keywords) (closed : IsClosed front)
    (closedMore : IsClosed (front ++ more)) (spelled : .word keyword :: behind = more ++ others) :
    more = [] := by
  cases more with
  | nil => rfl
  | cons token more =>
      obtain ⟨rfl, -⟩ := List.cons.inj spelled
      exact absurd closedMore (not_isClosed isKeyword closed)

/-- An operand ends at the first keyword outside of brackets. -/
theorem operand_unique {first second behind behindSecond : List Token} {keyword : String}
    (isKeyword : keyword ∈ keywords) (closed : IsClosed first) (closedSecond : IsClosed second)
    (same : first ++ .word keyword :: behind = second ++ .word keyword :: behindSecond) :
    first = second ∧ behind = behindSecond := by
  have sameLength : first = second := by
    obtain ⟨more, rfl, spelled⟩ | ⟨more, rfl, spelled⟩ := List.append_eq_append_iff.mp same
    · rw [eq_nil_of_isClosed isKeyword closed closedSecond spelled, List.append_nil]
    · rw [eq_nil_of_isClosed isKeyword closedSecond closed spelled, List.append_nil]
  subst sameLength
  exact ⟨rfl, List.tail_eq_of_cons_eq (List.append_cancel_left same)⟩

/-- The tokens of an expression are a conditional in one way only. -/
theorem Reads.unique {tokens : List Token} {choice other : Choice} (reads : Reads tokens choice)
    (readsOther : Reads tokens other) : choice = other := by
  have isIf : "if" ∈ keywords := by decide
  have isElse : "else" ∈ keywords := by decide
  induction reads generalizing other with
  | leaf isOperand =>
      cases readsOther with
      | leaf => rfl
      | choice isYes => exact absurd isOperand.closed (not_isClosed isIf isYes.closed)
  | @choice yes condition rest no isYes isCondition _ inductionHypothesis =>
      generalize spelled : yes ++ .word "if" :: (condition ++ .word "else" :: rest) = tokens
        at readsOther
      cases readsOther with
      | leaf isOperand =>
          rw [← spelled] at isOperand
          exact absurd isOperand.closed (not_isClosed isIf isYes.closed)
      | choice isOtherYes isOtherCondition reads =>
          obtain ⟨rfl, behind⟩ := operand_unique isIf isYes.closed isOtherYes.closed spelled
          obtain ⟨rfl, rfl⟩ :=
            operand_unique isElse isCondition.closed isOtherCondition.closed behind
          rw [inductionHypothesis reads]

/-! ## Selection -/

/-- The tokens that a conditional selects, given which conditions hold. -/
def Choice.selected (holds : List Token → Bool) : Choice → List Token
  | leaf tokens => tokens
  | choice yes condition no => if holds condition then yes else no.selected holds

/-- What becomes of an expression in front of a condition and the rest of a conditional: the last of
its values is the one that the condition decides on. -/
def Choice.before (first : Choice) (condition : List Token) (rest : Choice) : Choice :=
  match first with
  | leaf tokens => .choice tokens condition rest
  | choice yes inner no => .choice yes inner (no.before condition rest)

theorem Reads.before {first condition behind : List Token} {choice rest : Choice}
    (reads : Reads first choice) (isCondition : IsOperand condition)
    (readsRest : Reads behind rest) :
    Reads (first ++ .word "if" :: (condition ++ .word "else" :: behind))
      (choice.before condition rest) := by
  induction reads with
  | leaf isOperand => exact .choice isOperand isCondition readsRest
  | choice isYes isInner _ inductionHypothesis =>
      simpa [Choice.before] using Reads.choice isYes isInner inductionHypothesis

end ComponentModel.PythonSyntax.Conditional
