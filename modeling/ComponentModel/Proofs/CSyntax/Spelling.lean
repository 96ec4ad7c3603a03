import ComponentModel.Proofs.CSyntax.Meaning

/-!
# Spelling expressions in C

Which levels the parts of an expression need, and which level and value the whole has, for each way
of putting a text together from others.
-/

namespace ComponentModel.CSyntax

open Code (call)

variable {K : Type*} [Field K] [LinearOrder K] {meaning : Meaning K}

/-! ## Operators -/

theorem prefixes_negation :
    (grammar meaning).Prefixes .negation 7 7 fun value => truthValue (value = 0) := by
  rintro tokens value ⟨expression, reads, rfl⟩
  exact ⟨_, .negation reads, rfl⟩

theorem joins_binary (operator : Binary) :
    (grammar meaning).Joins (.binary operator) operator.level (operator.level + 1) operator.level
      operator.value := by
  rintro first second _ _ ⟨left, readsLeft, rfl⟩ ⟨right, readsRight, rfl⟩
  exact ⟨_, .binary operator rfl readsLeft readsRight, rfl⟩

theorem joins_absorbed {operator : Binary} (absorbs : operator.Absorbs K) :
    (grammar meaning).Joins (.binary operator) operator.level operator.level operator.level
      operator.value := by
  rintro first second _ _ ⟨left, readsLeft, rfl⟩ ⟨right, readsRight, rfl⟩
  exact readsLeft.absorb absorbs meaning rfl readsRight

/-- An operator with a right operand at the level that it takes there. -/
theorem joins_operator (operator : Binary) :
    (grammar meaning).Joins (.binary operator) operator.level operator.rightLevel operator.level
      operator.value := by
  cases operator with
  | plus => exact joins_absorbed Binary.plus_absorbs
  | times => exact joins_absorbed Binary.times_absorbs
  | conjunction => exact joins_absorbed Binary.conjunction_absorbs
  | disjunction => exact joins_absorbed Binary.disjunction_absorbs
  | _ => exact joins_binary _

/-! ## Calls -/

theorem calls_unary (function : String) :
    (grammar meaning).Calls function (meaning.unary function) := by
  rintro tokens value ⟨expression, reads, rfl⟩
  exact ⟨_, .unaryCall function reads, rfl⟩

/-- Whether a text is an expression of a level with a value. -/
abbrev Spells (meaning : Meaning K) : Nat → String → K → Prop :=
  (grammar meaning).Spells

namespace Spells

variable {level leftLevel rightLevel : Nat} {left right : String} {leftValue rightValue : K}

theorem binaryCall {function : String} (emitted : (Token.word function).IsEmitted)
    (spellsLeft : Spells meaning leftLevel left leftValue)
    (spellsRight : Spells meaning rightLevel right rightValue) :
    Spells meaning 8 (call function [left, right])
      (meaning.binary function leftValue rightValue) := by
  obtain ⟨tokens, emits, expression, reads, rfl⟩ := spellsLeft.loose
  obtain ⟨rightTokens, emitsRight, rightExpression, readsRight, rfl⟩ := spellsRight.loose
  refine ⟨_, ?_, _, .binaryCall function reads readsRight, rfl⟩
  have emitsWhole := (Emits.word emitted).append ((Emits.symbol .opening).append
    (emits.append ((Emits.symbol .comma).append (emitsRight.append (.symbol .closing)))))
  simpa [call, Symbol.text, String.append_assoc] using emitsWhole

theorem conditional {condition : String} {conditionValue : K}
    (spellsCondition : Spells meaning 1 condition conditionValue)
    (spellsYes : Spells meaning leftLevel left leftValue)
    (spellsNo : Spells meaning rightLevel right rightValue) :
    Spells meaning 0 (condition ++ "?" ++ left ++ ":" ++ right)
      (if conditionValue ≠ 0 then leftValue else rightValue) := by
  obtain ⟨tokens, emits, expression, reads, rfl⟩ := spellsCondition
  obtain ⟨leftTokens, emitsLeft, leftExpression, readsLeft, rfl⟩ := spellsYes.loose
  obtain ⟨rightTokens, emitsRight, rightExpression, readsRight, rfl⟩ := spellsNo.loose
  refine ⟨_, ?_, _, .conditional reads readsLeft readsRight, rfl⟩
  have emitsWhole := emits.append ((Emits.symbol .question).append
    (emitsLeft.append ((Emits.symbol .colon).append emitsRight)))
  simpa [Symbol.text, String.append_assoc] using emitsWhole

end Spells

end ComponentModel.CSyntax
