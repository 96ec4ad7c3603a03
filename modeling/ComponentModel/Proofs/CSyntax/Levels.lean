import ComponentModel.Proofs.CSyntax.Tokens

/-!
# Grammars by levels of precedence

What the languages of generated code share. A text is cut into tokens, and the tokens are an
expression at a level of precedence. The levels go from zero, the loosest one, to that of literals,
words and groups in parentheses. Which operators there are, and which value an expression has, is up
to the language.

A text spells a value at a level if it is joined from the tokens of an expression of that level with
that value. The tokens are found again in the text, because no two operands stand side by side; so
the text denotes the value, and no other one. How texts with values are put together is told by
their tokens: `Grammar.Prefixes` is about a symbol in front, `Grammar.Joins` about one in between.
-/

namespace ComponentModel.CSyntax

open Decimal (Numeral)

/-! ## Tokens without operands side by side -/

namespace Token

/-- Whether one of two tokens is no operand. -/
def Separated (token other : Token) : Prop :=
  token.kind = .symbol ∨ other.kind = .symbol

/-- Whether a token occurs in generated expressions. -/
structure IsEmitted (token : Token) : Prop where
  lexeme : token.IsLexeme
  /-- The name that the undefined value starts with does not stand alone. -/
  noRoot : token ≠ .word "sqrt"
  /-- No token has a letter of a placeholder. -/
  noPlaceholder : 'I' ∉ token.characters

theorem mem_starts {token : Token} {start : Char} (isSymbol : token.kind = .symbol)
    (first : start ∈ token.characters.head?) : start ∈ Symbol.starts := by
  cases token with
  | symbol symbol =>
    obtain ⟨symbolStart, rest, spelled, member⟩ := symbol.exists_start
    obtain rfl : symbolStart = start := by simpa [characters, spelled] using first
    exact member
  | literal | word => simp [kind] at isSymbol

theorem IsEmitted.apart {token other : Token} (emitted : token.IsEmitted)
    (separated : token.Separated other) : token.Apart other := by
  intro start first
  cases token with
  | symbol symbol => exact symbol_stopsAt symbol start
  | literal text =>
    have isSymbol : other.kind = .symbol := separated.resolve_left (by simp [kind])
    exact literal_stopsAt emitted.lexeme (mem_starts isSymbol first)
  | word text =>
    have isSymbol : other.kind = .symbol := separated.resolve_left (by simp [kind])
    exact word_stopsAt emitted.lexeme (fun isRoot => emitted.noRoot (isRoot ▸ rfl))
      (mem_starts isSymbol first)

end Token

theorem isChain_append {first second : List Token} {symbol : Symbol}
    (chain : first.IsChain Token.Separated) (chainSecond : second.IsChain Token.Separated) :
    (first ++ .symbol symbol :: second).IsChain Token.Separated := by
  refine List.isChain_append.mpr ⟨chain, chainSecond.cons fun _ _ => .inl rfl, ?_⟩
  intro last _ next isNext
  obtain rfl : .symbol symbol = next := by simpa using isNext
  exact .inr rfl

/-- Tokens are found again in their joined text, if no two operands stand side by side. -/
theorem Lexes.of_separated {tokens : List Token} (chain : tokens.IsChain Token.Separated)
    (emitted : ∀ token ∈ tokens, token.IsEmitted) :
    Lexes (tokens.flatMap Token.characters) tokens := by
  refine Lexes.of_isChain (fun token member => (emitted token member).lexeme) ?_
  exact chain.imp_of_mem_imp fun token _ member _ => (emitted token member).apart

/-! ## Tokens of a text -/

/-- Whether a text is the joined text of tokens that occur in generated expressions. -/
structure Emits (tokens : List Token) (text : String) : Prop where
  joined : tokens.flatMap Token.characters = text.toList
  emitted : ∀ token ∈ tokens, token.IsEmitted

namespace Emits

theorem append {first second : List Token} {text more : String} (emits : Emits first text)
    (emitsMore : Emits second more) : Emits (first ++ second) (text ++ more) where
  joined := by simp [emits.joined, emitsMore.joined]
  emitted token member := by
    obtain member | member := List.mem_append.mp member
    · exact emits.emitted token member
    · exact emitsMore.emitted token member

theorem single {token : Token} {text : String} (spelled : token.characters = text.toList)
    (emitted : token.IsEmitted) : Emits [token] text where
  joined := by simp [spelled]
  emitted := by simpa using emitted

theorem symbol (symbol : Symbol) : Emits [.symbol symbol] symbol.text := by
  have noPlaceholder : ∀ symbol ∈ Symbol.all, 'I' ∉ symbol.text.toList := by decide
  exact single rfl ⟨trivial, nofun, noPlaceholder symbol symbol.mem_all⟩

theorem literal {text : String} (unsigned : (Numeral.ofUnsigned? text.toList).isSome) :
    Emits [.literal text] text := by
  refine single rfl ⟨unsigned, nofun, ?_⟩
  obtain ⟨numeral, read⟩ := Option.isSome_iff_exists.mp unsigned
  intro inside
  exact absurd ((Decimal.Spelling.of_read read).mem inside) (by decide)

theorem word {text : String} (emitted : (Token.word text).IsEmitted) : Emits [.word text] text :=
  single rfl emitted

theorem parenthesized {tokens : List Token} {text : String} (emits : Emits tokens text) :
    Emits (.symbol .opening :: (tokens ++ [.symbol .closing])) (Code.parenthesized text) := by
  have emitsWhole := (Emits.symbol .opening).append (emits.append (.symbol .closing))
  rwa [← String.append_assoc] at emitsWhole

theorem between {first second : List Token} {text more : String} (emits : Emits first text)
    (symbol : Symbol) (emitsMore : Emits second more) :
    Emits (first ++ .symbol symbol :: second) (text ++ symbol.text ++ more) := by
  rw [String.append_assoc]
  exact emits.append ((Emits.symbol symbol).append emitsMore)

theorem call {function text : String} {tokens : List Token}
    (emitted : (Token.word function).IsEmitted) (emits : Emits tokens text) :
    Emits (.word function :: .symbol .opening :: (tokens ++ [.symbol .closing]))
      (Code.call function [text]) := by
  have emitsWhole := (Emits.word emitted).append
    ((Emits.symbol .opening).append (emits.append (.symbol .closing)))
  simpa [Code.call, Symbol.text, String.append_assoc] using emitsWhole

theorem lexes {tokens : List Token} {text : String} (emits : Emits tokens text)
    (chain : tokens.IsChain Token.Separated) : Lexes text.toList tokens :=
  emits.joined ▸ Lexes.of_separated chain emits.emitted

theorem noPlaceholder {tokens : List Token} {text : String} (emits : Emits tokens text) :
    'I' ∉ text.toList := by
  rw [← emits.joined, List.mem_flatMap]
  rintro ⟨token, member, inside⟩
  exact (emits.emitted token member).noPlaceholder inside

end Emits

/-! ## Grammars -/

/-- How tokens are read as expressions, and what these mean. -/
structure Grammar (K : Type*) where
  Expression : Type
  /-- The expression that a list of tokens is at a level of precedence. -/
  Reads : Nat → List Token → Expression → Prop
  /-- The value of an expression, if it has one. -/
  HasValue : Expression → K → Prop
  /-- The level of literals, words and groups in parentheses. -/
  tightest : Nat
  /-- The value of a literal. -/
  literal : String → K
  /-- The value of a word. -/
  word : String → K
  tighter {level : Nat} {tokens : List Token} {expression : Expression} :
    Reads (level + 1) tokens expression → Reads level tokens expression
  separated {level : Nat} {tokens : List Token} {expression : Expression} :
    Reads level tokens expression → tokens.IsChain Token.Separated
  unique {tokens : List Token} {expression other : Expression} :
    Reads 0 tokens expression → Reads 0 tokens other → expression = other
  value_unique {expression : Expression} {value other : K} :
    HasValue expression value → HasValue expression other → value = other
  reads_literal (text : String) :
    ∃ expression, Reads tightest [.literal text] expression ∧ HasValue expression (literal text)
  reads_word (text : String) :
    ∃ expression, Reads tightest [.word text] expression ∧ HasValue expression (word text)
  reads_group {tokens : List Token} {expression : Expression} :
    Reads 0 tokens expression →
      Reads tightest (.symbol .opening :: (tokens ++ [.symbol .closing])) expression

namespace Grammar

variable {K : Type*} {grammar : Grammar K} {level wanted : Nat} {tokens : List Token}
  {value : K} {text : String}

/-- Whether tokens are an expression of a level with a value. -/
def Means (grammar : Grammar K) (level : Nat) (tokens : List Token) (value : K) : Prop :=
  ∃ expression, grammar.Reads level tokens expression ∧ grammar.HasValue expression value

theorem Means.mono (means : grammar.Means level tokens value) (looser : wanted ≤ level) :
    grammar.Means wanted tokens value := by
  induction looser using Nat.decreasingInduction with
  | self => exact means
  | of_succ level _ inductionHypothesis =>
      obtain ⟨expression, reads, isValue⟩ := inductionHypothesis
      exact ⟨expression, grammar.tighter reads, isValue⟩

theorem Means.group (means : grammar.Means 0 tokens value) :
    grammar.Means grammar.tightest (.symbol .opening :: (tokens ++ [.symbol .closing])) value := by
  obtain ⟨expression, reads, isValue⟩ := means
  exact ⟨expression, grammar.reads_group reads, isValue⟩

/-- Whether a text, read as an expression, has a value. -/
def Denotes (grammar : Grammar K) (text : String) (value : K) : Prop :=
  ∃ tokens expression, Lexes text.toList tokens ∧ grammar.Reads 0 tokens expression ∧
    grammar.HasValue expression value

/-- A text is cut into tokens in one way, and these are read in one way. -/
theorem Denotes.unique {other : K} (denotes : grammar.Denotes text value)
    (denotesOther : grammar.Denotes text other) : value = other := by
  obtain ⟨tokens, expression, lexes, reads, isValue⟩ := denotes
  obtain ⟨otherTokens, otherExpression, otherLexes, otherReads, isOther⟩ := denotesOther
  obtain rfl := lexes.unique otherLexes
  obtain rfl := grammar.unique reads otherReads
  exact grammar.value_unique isValue isOther

/-! ## Putting tokens together -/

/-- Whether a symbol in front of the tokens of a value makes those of a changed value. -/
def Prefixes (grammar : Grammar K) (symbol : Symbol) (inner outer : Nat) (change : K → K) : Prop :=
  ∀ tokens value, grammar.Means inner tokens value →
    grammar.Means outer (.symbol symbol :: tokens) (change value)

/-- Whether a symbol between the tokens of two values makes those of the result of an operation. -/
def Joins (grammar : Grammar K) (symbol : Symbol) (left right outer : Nat)
    (operation : K → K → K) : Prop :=
  ∀ first second leftValue rightValue, grammar.Means left first leftValue →
    grammar.Means right second rightValue →
    grammar.Means outer (first ++ .symbol symbol :: second) (operation leftValue rightValue)

/-- Whether a function is called by its name, with the tokens of its argument in parentheses. -/
def Calls (grammar : Grammar K) (name : String) (function : K → K) : Prop :=
  ∀ tokens value, grammar.Means 0 tokens value →
    grammar.Means grammar.tightest
      (.word name :: .symbol .opening :: (tokens ++ [.symbol .closing])) (function value)

/-! ## Spelling values -/

/-- Whether a text is an expression of a level with a value. -/
def Spells (grammar : Grammar K) (level : Nat) (text : String) (value : K) : Prop :=
  ∃ tokens, Emits tokens text ∧ grammar.Means level tokens value

namespace Spells

variable {left right : String} {leftValue rightValue : K}

theorem mono (spells : grammar.Spells level text value) (looser : wanted ≤ level) :
    grammar.Spells wanted text value := by
  obtain ⟨tokens, emits, means⟩ := spells
  exact ⟨tokens, emits, means.mono looser⟩

theorem loose (spells : grammar.Spells level text value) : grammar.Spells 0 text value :=
  spells.mono (Nat.zero_le level)

theorem denotes (spells : grammar.Spells level text value) : grammar.Denotes text value := by
  obtain ⟨tokens, emits, expression, reads, isValue⟩ := spells.loose
  exact ⟨tokens, expression, emits.lexes (grammar.separated reads), reads, isValue⟩

/-- What a text spells is what it denotes, and nothing else is. -/
theorem denotes_iff (spells : grammar.Spells level text value) {other : K} :
    grammar.Denotes text other ↔ other = value := by
  constructor
  · intro denotes
    exact denotes.unique spells.denotes
  · rintro rfl
    exact spells.denotes

theorem noPlaceholder (spells : grammar.Spells level text value) : 'I' ∉ text.toList := by
  obtain ⟨tokens, emits, -⟩ := spells
  exact emits.noPlaceholder

theorem literal (unsigned : (Numeral.ofUnsigned? text.toList).isSome) :
    grammar.Spells grammar.tightest text (grammar.literal text) :=
  ⟨_, .literal unsigned, grammar.reads_literal text⟩

theorem word (emitted : (Token.word text).IsEmitted) :
    grammar.Spells grammar.tightest text (grammar.word text) :=
  ⟨_, .word emitted, grammar.reads_word text⟩

theorem parenthesized (spells : grammar.Spells level text value) :
    grammar.Spells grammar.tightest (Code.parenthesized text) value := by
  obtain ⟨tokens, emits, means⟩ := spells.loose
  exact ⟨_, emits.parenthesized, means.group⟩

theorem grouped {needed : Bool} (spells : grammar.Spells level text value)
    (otherwise : needed = false → wanted ≤ level) (isLevel : wanted ≤ grammar.tightest) :
    grammar.Spells wanted (Code.grouped needed text) value := by
  cases needed with
  | true => exact spells.parenthesized.mono isLevel
  | false => exact spells.mono (otherwise rfl)

theorem prefixed {symbol : Symbol} {inner outer : Nat} {change : K → K}
    (prefixes : grammar.Prefixes symbol inner outer change)
    (spells : grammar.Spells inner text value) :
    grammar.Spells outer (symbol.text ++ text) (change value) := by
  obtain ⟨tokens, emits, means⟩ := spells
  exact ⟨_, (Emits.symbol symbol).append emits, prefixes tokens value means⟩

theorem joined {symbol : Symbol} {leftLevel rightLevel : Nat} {operation : K → K → K}
    (joins : grammar.Joins symbol leftLevel rightLevel level operation)
    (spellsLeft : grammar.Spells leftLevel left leftValue)
    (spellsRight : grammar.Spells rightLevel right rightValue) :
    grammar.Spells level (left ++ symbol.text ++ right) (operation leftValue rightValue) := by
  obtain ⟨tokens, emits, means⟩ := spellsLeft
  obtain ⟨rightTokens, emitsRight, meansRight⟩ := spellsRight
  exact ⟨_, emits.between symbol emitsRight, joins _ _ _ _ means meansRight⟩

theorem called {name : String} {function : K → K} (calls : grammar.Calls name function)
    (emitted : (Token.word name).IsEmitted) (spells : grammar.Spells level text value) :
    grammar.Spells grammar.tightest (Code.call name [text]) (function value) := by
  obtain ⟨tokens, emits, means⟩ := spells.loose
  exact ⟨_, emits.call emitted, calls tokens value means⟩

end Spells

/-! ## Texts in front -/

/-- Whether a text in front makes a changed value of a level out of a value of another one. -/
def Precedes (grammar : Grammar K) (inner outer : Nat) (front : String) (change : K → K) : Prop :=
  ∀ text value, grammar.Spells inner text value →
    grammar.Spells outer (front ++ text) (change value)

variable {inner outer : Nat} {front : String} {change : K → K}

theorem precedes_nothing (looser : outer ≤ inner) : grammar.Precedes inner outer "" id := by
  intro text value spells
  rw [String.empty_append]
  exact spells.mono looser

/-- What is spelled in front of an operator may stand there with the operator. -/
theorem Spells.precedes {symbol : Symbol} {leftLevel : Nat} {operation : K → K → K}
    (spells : grammar.Spells leftLevel text value)
    (joins : grammar.Joins symbol leftLevel inner outer operation) :
    grammar.Precedes inner outer (text ++ symbol.text) (operation value) :=
  fun _ _ spellsRight => spells.joined joins spellsRight

/-- A symbol in front of an operand is one of the operand, also behind another text. -/
theorem Precedes.prefixed {symbol : Symbol} {innermost : Nat} {innerChange : K → K}
    (precedes : grammar.Precedes inner outer front change)
    (prefixes : grammar.Prefixes symbol innermost inner innerChange) :
    grammar.Precedes innermost outer (front ++ symbol.text) fun value =>
      change (innerChange value) := by
  intro text value spells
  rw [String.append_assoc]
  exact precedes _ _ (spells.prefixed prefixes)

end Grammar

end ComponentModel.CSyntax
