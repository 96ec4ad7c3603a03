import ComponentModel.Proofs.Numerals

/-!
# Tokens of expressions in C

The text of an expression is cut into tokens from the left; the next token is always the longest
one that the text starts with. Symbols stand with the blanks around them. A word is a name, an
array element, or the text for an undefined value, which counts as one token.
-/

namespace ComponentModel.CSyntax

open Decimal (Numeral)

/-- A binary operator. -/
inductive Binary where
  | disjunction
  | conjunction
  | equal
  | unequal
  | less
  | atMost
  | greater
  | atLeast
  | plus
  | minus
  | times
  | divide
  deriving Repr, DecidableEq

/-- A token that is no operand. -/
inductive Symbol where
  | binary (operator : Binary)
  | negation
  | question
  | colon
  | opening
  | closing
  | comma
  deriving Repr, DecidableEq

namespace Symbol

/-- How a symbol is written. -/
def text : Symbol → String
  | binary .disjunction => " || "
  | binary .conjunction => " && "
  | binary .equal => " == "
  | binary .unequal => " != "
  | binary .less => " < "
  | binary .atMost => " <= "
  | binary .greater => " > "
  | binary .atLeast => " >= "
  | binary .plus => "+"
  | binary .minus => "-"
  | binary .times => "*"
  | binary .divide => "/"
  | negation => "!"
  | question => "?"
  | colon => ":"
  | opening => "("
  | closing => ")"
  | comma => ", "

/-- All symbols. -/
def all : List Symbol :=
  [binary .disjunction, binary .conjunction, binary .equal, binary .unequal, binary .less,
   binary .atMost, binary .greater, binary .atLeast, binary .plus, binary .minus, binary .times,
   binary .divide, negation, question, colon, opening, closing, comma]

theorem mem_all (symbol : Symbol) : symbol ∈ all := by
  rcases symbol with operator | _ | _ | _ | _ | _ | _
  · cases operator <;> decide
  all_goals decide

/-- The characters that symbols start with. -/
def starts : List Char :=
  [' ', '+', '-', '*', '/', '!', '?', ':', '(', ')', ',']

-- A quantifier over characters would be decided by going through all of them, not the list.
@[elab_as_elim]
theorem forall_starts {motive : Char → Prop} [DecidablePred motive]
    (checked : starts.all (decide <| motive ·)) {start : Char} (member : start ∈ starts) :
    motive start :=
  of_decide_eq_true (List.all_eq_true.mp checked start member)

theorem exists_start (symbol : Symbol) :
    ∃ start rest, symbol.text.toList = start :: rest ∧ start ∈ starts := by
  have checked : ∀ symbol ∈ all, symbol.text.toList.head?.any (decide <| · ∈ starts) := by
    decide
  obtain ⟨start, first, member⟩ := (Option.any_eq_true _ _).mp (checked symbol symbol.mem_all)
  obtain ⟨rest, spelled⟩ := List.head?_eq_some_iff.mp first
  exact ⟨start, rest, spelled, of_decide_eq_true member⟩

theorem eq_of_begins {symbol other : Symbol}
    (begins : symbol.text.toList <+: other.text.toList) : symbol = other := by
  have checked : ∀ symbol ∈ all, ∀ other ∈ all,
      symbol.text.toList <+: other.text.toList → symbol = other := by
    decide
  exact checked symbol symbol.mem_all other other.mem_all begins

end Symbol

/-- A token. -/
inductive Token where
  | symbol (symbol : Symbol)
  | literal (text : String)
  | word (text : String)
  deriving Repr, DecidableEq

/-! ## Well-formed tokens -/

/-- Whether a name may start with a character. -/
def isNameStart (character : Char) : Bool :=
  character.isAlpha || character == '_'

/-- Whether a character may stand in a name. -/
def isNameCharacter (character : Char) : Bool :=
  character.isAlphanum || character == '_'

/-- A name of a variable or function. -/
def IsName (characters : List Char) : Prop :=
  characters.head?.any isNameStart ∧ ∀ character ∈ characters, isNameCharacter character

instance (characters : List Char) : Decidable (IsName characters) :=
  decidable_of_iff (characters.head?.any isNameStart ∧ characters.all isNameCharacter)
    (and_congr_right' List.all_eq_true)

/-- The text that stands for an undefined value. -/
def undefinedText : String :=
  "sqrt(-1.0)"

/-- A word: a name, an array element, or the undefined value. -/
inductive IsWord : List Char → Prop where
  | name {name : List Char} (isName : IsName name) : IsWord name
  | element {array index : List Char} (isName : IsName array) (indexed : index ≠ [])
      (areDigits : Decimal.AreDigits index) :
      IsWord (array ++ '[' :: (index ++ [']']))
  | undefined : IsWord undefinedText.toList

theorem IsWord.exists_start {characters : List Char} (isWord : IsWord characters) :
    ∃ start rest, characters = start :: rest ∧ isNameStart start := by
  have of_name {name : List Char} (isName : IsName name) :
      ∃ start rest, name = start :: rest ∧ isNameStart start := by
    cases name with
    | nil => exact absurd isName.1 (by decide)
    | cons start rest => exact ⟨start, rest, rfl, isName.1⟩
  cases isWord with
  | name isName => exact of_name isName
  | element isName =>
    obtain ⟨start, rest, rfl, isStart⟩ := of_name isName
    exact ⟨start, _, List.cons_append, isStart⟩
  | undefined => exact ⟨'s', "qrt(-1.0)".toList, by decide, by decide⟩

/-- Only the undefined value, which starts like a name, goes on with a symbol. -/
theorem IsWord.stops {characters more : List Char} {next : Char} (isWord : IsWord characters)
    (notRoot : characters ≠ "sqrt".toList) (member : next ∈ Symbol.starts) :
    ¬IsWord (characters ++ next :: more) := by
  obtain ⟨notName, notDigit, notOpen, notClose⟩ :
      ¬isNameCharacter next ∧ ¬next.isDigit ∧ next ≠ '[' ∧ next ≠ ']' :=
    Symbol.forall_starts (by decide) member
  intro longer
  have inside : next ∈ characters ++ next :: more := by simp
  generalize spelled : characters ++ next :: more = word at longer inside
  cases longer with
  | name isName => exact notName (isName.2 next inside)
  | @element array index isName _ areDigits =>
    have notArray : next ∉ array := fun member => notName (isName.2 next member)
    have notIndex : next ∉ index := fun member => notDigit (areDigits next member)
    simp [notArray, notIndex, notOpen, notClose] at inside
  | undefined =>
    cases isWord with
    | name isName =>
      have front : undefinedText.toList.takeWhile isNameCharacter = characters := by
        rw [← spelled, List.takeWhile_append_of_pos isName.2]
        simp [notName]
      exact notRoot (front.symm.trans (by decide))
    | element =>
      have closed : ']' ∈ undefinedText.toList := by
        rw [← spelled]
        simp
      exact absurd closed (by decide)
    | undefined => simp at spelled

namespace Token

/-- How a token is written. -/
def characters : Token → List Char
  | symbol found => found.text.toList
  | literal text => text.toList
  | word text => text.toList

/-- Whether the text of a token is one of its kind. -/
def IsLexeme : Token → Prop
  | symbol _ => True
  | literal text => (Numeral.ofUnsigned? text.toList).isSome
  | word text => IsWord text.toList

/-- The three kinds of tokens. -/
inductive Kind where
  | symbol
  | literal
  | word
  deriving Repr, DecidableEq

/-- The kind of a token. -/
def kind : Token → Kind
  | symbol _ => .symbol
  | literal _ => .literal
  | word _ => .word

/-- The kind of the tokens that start with a character. -/
def kindOf (start : Char) : Kind :=
  if start.isDigit || start == '.' then .literal
  else if isNameStart start then .word
  else .symbol

/-- Letters and the underscore stand behind the digits and the point. -/
theorem le_of_isNameStart {start : Char} (isStart : isNameStart start) : 'A' ≤ start := by
  rcases Bool.or_eq_true_iff.mp isStart with isLetter | isUnderscore
  · rcases Bool.or_eq_true_iff.mp isLetter with isUpper | isLower
    · exact (of_decide_eq_true isUpper).1
    · have small : 'a' ≤ start := of_decide_eq_true (Bool.and_eq_true_iff.mp isLower).1
      exact Char.le_trans (by decide) small
  · exact eq_of_beq isUnderscore ▸ by decide

theorem kindOf_of_isNameStart {start : Char} (isStart : isNameStart start) :
    kindOf start = .word := by
  have behind := le_of_isNameStart isStart
  have notPoint : start ≠ '.' := by
    rintro rfl
    exact absurd behind (by decide)
  have notDigit : ¬start.isDigit := fun isDigit =>
    have digit : start ≤ '9' := of_decide_eq_true (Bool.and_eq_true_iff.mp isDigit).2
    absurd (Char.le_trans behind digit) (by decide)
  simp [kindOf, notPoint, notDigit, isStart]

theorem kindOf_of_mem_starts {start : Char} (member : start ∈ Symbol.starts) :
    kindOf start = .symbol :=
  Symbol.forall_starts (by decide) member

theorem IsLexeme.exists_start {token : Token} (lexeme : token.IsLexeme) :
    ∃ start rest, token.characters = start :: rest ∧ kindOf start = token.kind := by
  cases token with
  | symbol found =>
    obtain ⟨start, rest, spelled, member⟩ := found.exists_start
    exact ⟨start, rest, spelled, kindOf_of_mem_starts member⟩
  | literal text =>
    obtain ⟨numeral, read⟩ := Option.isSome_iff_exists.mp lexeme
    obtain ⟨start, rest, spelled, isStart⟩ := (Decimal.Spelling.of_read read).exists_start
    exact ⟨start, rest, spelled, by simp [kindOf, kind, isStart]⟩
  | word text =>
    obtain ⟨start, rest, spelled, isStart⟩ := IsWord.exists_start lexeme
    exact ⟨start, rest, spelled, kindOf_of_isNameStart isStart⟩

theorem IsLexeme.kind_eq {token other : Token} (lexeme : token.IsLexeme)
    (otherLexeme : other.IsLexeme) (begins : token.characters <+: other.characters) :
    token.kind = other.kind := by
  obtain ⟨start, rest, spelled, isKind⟩ := lexeme.exists_start
  obtain ⟨otherStart, otherRest, otherSpelled, isOtherKind⟩ := otherLexeme.exists_start
  rw [spelled, otherSpelled, List.cons_prefix_cons] at begins
  rw [← isKind, ← isOtherKind, begins.1]

theorem IsLexeme.eq_of_characters {token other : Token} (lexeme : token.IsLexeme)
    (otherLexeme : other.IsLexeme) (same : token.characters = other.characters) :
    token = other := by
  have begins : token.characters <+: other.characters := same ▸ List.prefix_rfl
  have sameKind := lexeme.kind_eq otherLexeme begins
  cases token <;> cases other
  case symbol.symbol => rw [Symbol.eq_of_begins begins]
  case literal.literal | word.word => simpa [characters, String.toList_inj] using same
  all_goals simp [kind] at sameKind

/-- No token goes on behind a token with a character. -/
def StopsAt (token : Token) (next : Char) : Prop :=
  ∀ other : Token, other.IsLexeme → ∀ more, other.characters ≠ token.characters ++ next :: more

/-- A token ends where the other one starts, if that follows. -/
def Apart (token other : Token) : Prop :=
  ∀ start ∈ other.characters.head?, token.StopsAt start

theorem symbol_stopsAt (symbol : Symbol) (next : Char) : (Token.symbol symbol).StopsAt next := by
  intro other lexeme more longer
  have begins : (Token.symbol symbol).characters <+: other.characters := ⟨_, longer.symm⟩
  have isLexeme : (Token.symbol symbol).IsLexeme := trivial
  have sameKind := isLexeme.kind_eq lexeme begins
  cases other with
  | symbol other =>
    obtain rfl := Symbol.eq_of_begins begins
    simp [characters] at longer
  | literal | word => simp [kind] at sameKind

theorem literal_stopsAt {text : String} (lexeme : (Token.literal text).IsLexeme) {next : Char}
    (member : next ∈ Symbol.starts) : (Token.literal text).StopsAt next := by
  intro other otherLexeme more longer
  have sameKind := lexeme.kind_eq otherLexeme ⟨_, longer.symm⟩
  cases other with
  | symbol | word => simp [kind] at sameKind
  | literal other =>
    obtain ⟨short, readShort⟩ := Option.isSome_iff_exists.mp lexeme
    obtain ⟨long, readLong⟩ := Option.isSome_iff_exists.mp otherLexeme
    have longSpelling := Decimal.Spelling.of_read readLong
    simp only [characters] at longer
    rw [longer] at longSpelling
    have continued := (Decimal.Spelling.of_read readShort).continued longSpelling
    have stops : ¬(next.isDigit ∨ next = '.' ∨ Decimal.isMark next) :=
      Symbol.forall_starts (by decide) member
    exact stops continued

theorem word_stopsAt {text : String} (lexeme : (Token.word text).IsLexeme)
    (notRoot : text ≠ "sqrt") {next : Char} (member : next ∈ Symbol.starts) :
    (Token.word text).StopsAt next := by
  intro other otherLexeme more longer
  have sameKind := lexeme.kind_eq otherLexeme ⟨_, longer.symm⟩
  cases other with
  | symbol | literal => simp [kind] at sameKind
  | word other =>
    have isWord : IsWord other.toList := otherLexeme
    rw [show other.toList = _ from longer] at isWord
    exact IsWord.stops lexeme (by simpa [← String.toList_inj] using notRoot) member isWord

end Token

/-- The tokens of a text: each is the longest one that the rest of the text starts with. -/
inductive Lexes : List Char → List Token → Prop where
  | nil : Lexes [] []
  | cons {token : Token} {rest : List Char} {tokens : List Token} (lexeme : token.IsLexeme)
      (longest : ∀ other : Token, other.IsLexeme →
        other.characters <+: token.characters ++ rest →
          other.characters.length ≤ token.characters.length)
      (behind : Lexes rest tokens) :
      Lexes (token.characters ++ rest) (token :: tokens)

namespace Lexes

theorem unique {text : List Char} {tokens others : List Token} (lexes : Lexes text tokens)
    (lexesOthers : Lexes text others) : tokens = others := by
  induction lexes generalizing others with
  | nil =>
    generalize spelled : ([] : List Char) = text at lexesOthers
    cases lexesOthers with
    | nil => rfl
    | cons lexeme =>
      obtain ⟨start, rest, isSpelled, -⟩ := lexeme.exists_start
      simp [isSpelled] at spelled
  | @cons token rest tokens lexeme longest _ inductionHypothesis =>
    generalize spelled : token.characters ++ rest = text at lexesOthers
    cases lexesOthers with
    | nil =>
      obtain ⟨start, rest, isSpelled, -⟩ := lexeme.exists_start
      simp [isSpelled] at spelled
    | @cons other otherRest others otherLexeme otherLongest behind =>
      have shorter := otherLongest token lexeme (spelled ▸ List.prefix_append _ _)
      have longer := longest other otherLexeme (spelled ▸ List.prefix_append _ _)
      obtain ⟨same, rfl⟩ := List.append_inj spelled (Nat.le_antisymm shorter longer)
      rw [lexeme.eq_of_characters otherLexeme same, inductionHypothesis behind]

/-- A list of tokens is what a text is cut into if no token goes on with the next one. -/
theorem of_isChain {tokens : List Token} (lexemes : ∀ token ∈ tokens, token.IsLexeme)
    (chain : tokens.IsChain Token.Apart) : Lexes (tokens.flatMap Token.characters) tokens := by
  induction tokens with
  | nil => exact .nil
  | cons token tokens inductionHypothesis =>
    obtain ⟨lexeme, lexemes⟩ := List.forall_mem_cons.mp lexemes
    obtain ⟨apart, chain⟩ := List.isChain_cons.mp chain
    rw [List.flatMap_cons]
    refine .cons lexeme (fun other otherLexeme begins => ?_) (inductionHypothesis lexemes chain)
    obtain ⟨rest, whole⟩ := begins
    obtain ⟨more, shorter, -⟩ | ⟨more, longer, behind⟩ := List.append_eq_append_iff.mp whole
    · simp [shorter]
    · cases more with
      | nil => simp [longer]
      | cons next more =>
        -- A longer token would go on with the first character of the token behind this one.
        cases tokens with
        | nil => simp at behind
        | cons second tokens =>
          obtain ⟨start, rest, spelled, -⟩ := (lexemes second List.mem_cons_self).exists_start
          obtain ⟨rfl, -⟩ : start = next ∧ _ := by simpa [spelled] using behind
          exact absurd longer (apart second rfl start (by simp [spelled]) other otherLexeme more)

end Lexes

end ComponentModel.CSyntax
