import ComponentModel.Proofs.CSyntax.Signs

/-!
# Chains of operands

A text without parentheses is a chain: operands with operators between them. How it is grouped is
up to the operators alone. Powers are taken first, from the right, and a sign in front of an operand
is one of its power; then products and quotients, then sums and differences, both from the left.

Two chains with an operator between them are one chain, and it may be grouped in another way than
the two. The laws of `Chain.value` say when it is not: a sum takes any chain on either side, a
difference a product on its right, a product products on both sides, a quotient a power on its
right, and a power a single operand without a sign on its left and a power on its right.

`Language` lists what has to be known of a language so that the text of a chain is read with the
value of the chain.
-/

namespace ComponentModel

open Code (grouped)
open CSyntax (Grammar Symbol)
open CSyntax.Signed (Basic)

variable {K : Type*}

/-- An operator between two operands of a chain. -/
inductive Link (K : Type*) where
  | basic (operator : Basic)
  /-- A power, with its meaning. -/
  | power (function : K → K → K)

/-- How tightly an operator binds. -/
def Link.level : Link K → Nat
  | basic operator => operator.binary.level
  | power _ => 7

/-- An operand with or without a minus sign in front. -/
structure SignedOperand (K : Type*) where
  negative : Bool
  base : K

/-- Operands with operators between them. -/
structure Chain (K : Type*) where
  first : SignedOperand K
  rest : List (Link K × SignedOperand K)

namespace Chain

/-- The chain of one operand. -/
def single (value : K) : Chain K :=
  ⟨⟨false, value⟩, []⟩

/-- The chain of one operand with a minus sign in front. -/
def negative (size : K) : Chain K :=
  ⟨⟨true, size⟩, []⟩

/-- Two chains with an operator between them. -/
def join (link : Link K) (left right : Chain K) : Chain K :=
  ⟨left.first, left.rest ++ (link, right.first) :: right.rest⟩

/-- Whether all operators of a chain bind as tightly as a level. -/
def Binds (level : Nat) (chain : Chain K) : Prop :=
  ∀ entry ∈ chain.rest, level ≤ entry.1.level

variable {level : Nat} {left right : Chain K}

@[simp] theorem binds_single (value : K) : (single value).Binds level := by
  simp [Binds, single]

theorem Binds.mono {wanted : Nat} (binds : left.Binds level) (looser : wanted ≤ level) :
    left.Binds wanted :=
  fun entry member => Nat.le_trans looser (binds entry member)

@[simp] theorem binds_negative (size : K) : (negative size).Binds level := by
  simp [Binds, negative]

/-- No operator binds looser than a sum. -/
theorem binds_five (chain : Chain K) : chain.Binds 5 := by
  rintro ⟨link, next⟩ -
  cases link with
  | basic operator => exact operator.level_bounds.1
  | power => exact Nat.le_of_ble_eq_true rfl

theorem binds_join (link : Link K) :
    (join link left right).Binds level ↔
      left.Binds level ∧ level ≤ link.level ∧ right.Binds level := by
  simp [Binds, join, or_imp, forall_and]

end Chain

section Values

variable [Field K]

namespace SignedOperand

/-- A power of an operand, or the operand itself, with its sign. -/
def signed (operand : SignedOperand K) (raised : K) : K :=
  if operand.negative then -raised else raised

/-- The value of an operand. -/
def value (operand : SignedOperand K) : K :=
  operand.signed operand.base

end SignedOperand

namespace Chain

/-- The value of a chain from one operand on. What stands in front of it makes the whole out of the
product that the operand is in (`sum`), the product out of its power (`product`), and the power out
of the rest of the power (`power`). -/
def valueFrom (sum product power : K → K) (operand : SignedOperand K) :
    List (Link K × SignedOperand K) → K
  | [] => sum (product (power operand.value))
  | (.basic operator, next) :: rest =>
      let front := product (power operand.value)
      if operator.binary.level = 5 then valueFrom (operator.value (sum front)) id id next rest
      else valueFrom sum (operator.value front) id next rest
  | (.power function, next) :: rest =>
      let raised := fun exponent => power (operand.signed (function operand.base exponent))
      valueFrom sum product raised next rest

/-- The value of a chain. -/
def value (chain : Chain K) : K :=
  valueFrom id id id chain.first chain.rest

/-- A chain, in parentheses where they are needed. -/
def enclosed (needed : Bool) (chain : Chain K) : Chain K :=
  if needed then single chain.value else chain

variable {level : Nat} {chain left right : Chain K}

@[simp] theorem value_single (value : K) : (single value).value = value :=
  rfl

@[simp] theorem value_negative (size : K) : (negative size).value = -size :=
  rfl

@[simp] theorem value_enclosed (needed : Bool) : (chain.enclosed needed).value = chain.value := by
  cases needed <;> rfl

theorem binds_enclosed {needed : Bool} (otherwise : needed = false → chain.Binds level) :
    (chain.enclosed needed).Binds level := by
  cases needed with
  | true => exact binds_single _
  | false => exact otherwise rfl

/-! ## What stands in front of a chain -/

section Front

variable {rest : List (Link K × SignedOperand K)}

theorem level_eq_six {operator : Basic} (isProduct : operator.binary.level ≠ 5) :
    operator = .times ∨ operator = .divide := by
  cases operator <;> simp_all [Basic.binary, CSyntax.Binary.level]

/-- In front of a product, the sum stays in front. -/
theorem valueFrom_product (binds : ∀ entry ∈ rest, 6 ≤ entry.1.level) (sum product power : K → K)
    (operand : SignedOperand K) :
    valueFrom sum product power operand rest = sum (valueFrom id product power operand rest) := by
  induction rest generalizing product power operand with
  | nil => rfl
  | cons entry rest inductionHypothesis =>
      obtain ⟨link, next⟩ := entry
      obtain ⟨isTight, bindsRest⟩ := List.forall_mem_cons.mp binds
      cases link with
      | basic operator =>
          have isProduct : operator.binary.level ≠ 5 := by
            rw [Link.level] at isTight
            omega
          simp only [valueFrom, if_neg isProduct]
          exact inductionHypothesis bindsRest _ _ _
      | power function => exact inductionHypothesis bindsRest _ _ _

/-- In front of a power, everything stays in front. -/
theorem valueFrom_power (binds : ∀ entry ∈ rest, 7 ≤ entry.1.level) (sum product power : K → K)
    (operand : SignedOperand K) :
    valueFrom sum product power operand rest =
      sum (product (power (valueFrom id id id operand rest))) := by
  induction rest generalizing sum product power operand with
  | nil => rfl
  | cons entry rest inductionHypothesis =>
      obtain ⟨link, next⟩ := entry
      obtain ⟨isTight, bindsRest⟩ := List.forall_mem_cons.mp binds
      cases link with
      | basic operator =>
          have := operator.level_bounds
          rw [Link.level] at isTight
          omega
      | power function =>
          have whole := inductionHypothesis bindsRest sum product
            (fun exponent => power (operand.signed (function operand.base exponent))) next
          have alone := inductionHypothesis bindsRest id id
            (fun exponent => id (operand.signed (function operand.base exponent))) next
          exact whole.trans (congrArg (fun value => sum (product (power value))) alone.symm)

/-- A summand in front of a chain is added to its value. -/
theorem valueFrom_add (summand : K) (sum product power : K → K) (operand : SignedOperand K) :
    valueFrom (fun value => summand + sum value) product power operand rest =
      summand + valueFrom sum product power operand rest := by
  induction rest generalizing sum product power operand with
  | nil => rfl
  | cons entry rest inductionHypothesis =>
      obtain ⟨link, next⟩ := entry
      cases link with
      | power function => exact inductionHypothesis _ _ _ _
      | basic operator =>
          cases operator with
          | plus =>
              refine Eq.trans ?_ (inductionHypothesis _ _ _ _)
              simp only [valueFrom, Basic.binary, CSyntax.Binary.level, if_true]
              congr 1
              funext value
              exact add_assoc _ _ _
          | minus =>
              refine Eq.trans ?_ (inductionHypothesis _ _ _ _)
              simp only [valueFrom, Basic.binary, CSyntax.Binary.level, if_true]
              congr 1
              funext value
              exact add_sub_assoc _ _ _
          | times | divide => exact inductionHypothesis _ _ _ _

/-- A factor in front of a product is multiplied by its value. -/
theorem valueFrom_mul (binds : ∀ entry ∈ rest, 6 ≤ entry.1.level) (factor : K)
    (product power : K → K) (operand : SignedOperand K) :
    valueFrom id (fun value => factor * product value) power operand rest =
      factor * valueFrom id product power operand rest := by
  induction rest generalizing product power operand with
  | nil => rfl
  | cons entry rest inductionHypothesis =>
      obtain ⟨link, next⟩ := entry
      obtain ⟨isTight, bindsRest⟩ := List.forall_mem_cons.mp binds
      cases link with
      | power function => exact inductionHypothesis bindsRest _ _ _
      | basic operator =>
          have isProduct : operator.binary.level ≠ 5 := by
            rw [Link.level] at isTight
            omega
          simp only [valueFrom, if_neg isProduct]
          rw [← inductionHypothesis bindsRest]
          congr 1
          funext value
          obtain rfl | rfl := level_eq_six isProduct
          · exact mul_assoc _ _ _
          · exact mul_div_assoc _ _ _

/-- A sum or difference behind a chain is one of the whole chain. -/
theorem valueFrom_append_sum {operator : Basic} (isSum : operator.binary.level = 5)
    (next : SignedOperand K) (behind : List (Link K × SignedOperand K)) (sum product power : K → K)
    (operand : SignedOperand K) :
    valueFrom sum product power operand (rest ++ (.basic operator, next) :: behind) =
      valueFrom (operator.value (valueFrom sum product power operand rest)) id id next behind := by
  induction rest generalizing sum product power operand with
  | nil => simp only [List.nil_append, valueFrom, if_pos isSum]
  | cons entry rest inductionHypothesis =>
      obtain ⟨link, other⟩ := entry
      cases link with
      | power function => exact inductionHypothesis _ _ _ _
      | basic between =>
          simp only [List.cons_append, valueFrom]
          split
          · exact inductionHypothesis _ _ _ _
          · exact inductionHypothesis _ _ _ _

/-- A product or quotient behind a product is one of the whole product. -/
theorem valueFrom_append_product {operator : Basic} (isProduct : operator.binary.level ≠ 5)
    (binds : ∀ entry ∈ rest, 6 ≤ entry.1.level) (next : SignedOperand K)
    (behind : List (Link K × SignedOperand K)) (sum product power : K → K)
    (operand : SignedOperand K) :
    valueFrom sum product power operand (rest ++ (.basic operator, next) :: behind) =
      valueFrom sum (operator.value (valueFrom id product power operand rest)) id next behind := by
  induction rest generalizing product power operand with
  | nil => simp only [List.nil_append, valueFrom, if_neg isProduct, id]
  | cons entry rest inductionHypothesis =>
      obtain ⟨link, other⟩ := entry
      obtain ⟨isTight, bindsRest⟩ := List.forall_mem_cons.mp binds
      cases link with
      | power function => exact inductionHypothesis bindsRest _ _ _
      | basic between =>
          have isOther : between.binary.level ≠ 5 := by
            rw [Link.level] at isTight
            omega
          simp only [List.cons_append, valueFrom, if_neg isOther]
          exact inductionHypothesis bindsRest _ _ _

end Front

/-! ## Two chains with an operator between them -/

/-- Two chains are the operands of an operator between them if their own operators bind tightly
enough. -/
theorem value_basic (operator : Basic) (bindsLeft : left.Binds operator.binary.level)
    (bindsRight : right.Binds operator.rightLevel) :
    (join (.basic operator) left right).value = operator.value left.value right.value := by
  have behindSum (isSum : operator.binary.level = 5) :
      (join (.basic operator) left right).value =
        valueFrom (operator.value left.value) id id right.first right.rest :=
    valueFrom_append_sum isSum right.first right.rest id id id left.first
  have behindProduct (isProduct : operator.binary.level ≠ 5) (bindsLeft : left.Binds 6) :
      (join (.basic operator) left right).value =
        valueFrom id (operator.value left.value) id right.first right.rest :=
    valueFrom_append_product isProduct bindsLeft right.first right.rest id id id left.first
  cases operator with
  | plus => exact (behindSum rfl).trans (valueFrom_add left.value id id id right.first)
  | minus => exact (behindSum rfl).trans (valueFrom_product bindsRight _ id id right.first)
  | times =>
      exact (behindProduct (by decide) bindsLeft).trans
        (valueFrom_mul bindsRight left.value id id right.first)
  | divide =>
      exact (behindProduct (by decide) bindsLeft).trans
        (valueFrom_power bindsRight id _ id right.first)

/-- Operands in parentheses where they need them. -/
theorem value_operands (operator : Basic) {needsLeft needsRight : Bool} {leftValue rightValue : K}
    (isLeft : left.value = leftValue) (isRight : right.value = rightValue)
    (bindsLeft : (left.enclosed needsLeft).Binds operator.binary.level)
    (bindsRight : (right.enclosed needsRight).Binds operator.rightLevel) :
    (join (.basic operator) (left.enclosed needsLeft) (right.enclosed needsRight)).value =
      operator.value leftValue rightValue := by
  rw [value_basic operator bindsLeft bindsRight, value_enclosed, value_enclosed, isLeft, isRight]

theorem value_power (function : K → K → K) (base : K) (bindsRight : right.Binds 7) :
    (join (.power function) (single base) right).value = function base right.value :=
  valueFrom_power bindsRight id id (function base) right.first

end Chain

/-! ## The text of a chain -/

/-- What has to be known of a language in which chains are written: how it takes the operators of
basic arithmetic, and which texts are operands and powers. -/
structure Language (K : Type*) [Field K] extends Grammar K where
  IsOperand : SignedOperand K → String → Prop
  IsPower : (K → K → K) → Prop
  basic (operator : Basic) :
    toGrammar.Joins (.binary operator.binary) operator.binary.level (operator.binary.level + 1)
      operator.binary.level operator.value
  unsigned {text : String} {value : K} :
    toGrammar.Spells tightest text value → IsOperand ⟨false, value⟩ text
  operand {operand : SignedOperand K} {text : String} :
    IsOperand operand text → toGrammar.Spells 7 text operand.value
  power {function : K → K → K} {operand : SignedOperand K} {text exponent : String} {value : K} :
    IsPower function → IsOperand operand text → toGrammar.Spells 7 exponent value →
      toGrammar.Spells 7 (text ++ "**" ++ exponent) (operand.signed (function operand.base value))

namespace Language

variable {language : Language K}

/-- Whether a text is made of the texts of an operand and of what follows it in a chain. -/
inductive Writes (language : Language K) :
    String → SignedOperand K → List (Link K × SignedOperand K) → Prop where
  | last {operand : SignedOperand K} {text : String} (isOperand : language.IsOperand operand text) :
      Writes language text operand []
  | basic (operator : Basic) {operand next : SignedOperand K} {text behind : String}
      {rest : List (Link K × SignedOperand K)} (isOperand : language.IsOperand operand text)
      (writes : Writes language behind next rest) :
      Writes language (text ++ (Symbol.binary operator.binary).text ++ behind) operand
        ((.basic operator, next) :: rest)
  | power {function : K → K → K} {operand next : SignedOperand K} {text behind : String}
      {rest : List (Link K × SignedOperand K)} (isPower : language.IsPower function)
      (isOperand : language.IsOperand operand text) (writes : Writes language behind next rest) :
      Writes language (text ++ "**" ++ behind) operand ((.power function, next) :: rest)

/-- Whether a text is that of a chain. -/
def IsText (language : Language K) (text : String) (chain : Chain K) : Prop :=
  language.Writes text chain.first chain.rest

/-- A text of operands, behind what makes sums, products and powers of them. -/
theorem Writes.spells {text sumFront productFront powerFront : String} {operand : SignedOperand K}
    {rest : List (Link K × SignedOperand K)} {sum product power : K → K}
    (writes : language.Writes text operand rest) (precedesSum : language.Precedes 6 5 sumFront sum)
    (precedesProduct : language.Precedes 7 6 productFront product)
    (precedesPower : language.Precedes 7 7 powerFront power) :
    language.Spells 5 (sumFront ++ (productFront ++ (powerFront ++ text)))
      (Chain.valueFrom sum product power operand rest) := by
  induction writes generalizing sumFront productFront powerFront sum product power with
  | last isOperand =>
      exact precedesSum _ _ (precedesProduct _ _ (precedesPower _ _ (language.operand isOperand)))
  | @basic operator operand next text behind rest isOperand _ inductionHypothesis =>
      have spellsProduct := precedesProduct _ _ (precedesPower _ _ (language.operand isOperand))
      by_cases isSum : operator.binary.level = 5
      · have spellsSum : language.Spells operator.binary.level _ _ :=
          isSum ▸ precedesSum _ _ spellsProduct
        have precedes := spellsSum.precedes (language.basic operator)
        rw [isSum] at precedes
        rw [Chain.valueFrom, if_pos isSum]
        simpa [String.append_assoc] using inductionHypothesis precedes
          (Grammar.precedes_nothing (by decide)) (Grammar.precedes_nothing (by decide))
      · have isProduct : operator.binary.level = 6 := by
          have := operator.level_bounds
          omega
        have precedes := (isProduct ▸ spellsProduct).precedes (language.basic operator)
        rw [isProduct] at precedes
        rw [Chain.valueFrom, if_neg isSum]
        simpa [String.append_assoc] using inductionHypothesis precedesSum precedes
          (Grammar.precedes_nothing (by decide))
  | @power function operand next text behind rest isPower isOperand _ inductionHypothesis =>
      have precedes : language.Precedes 7 7 (powerFront ++ (text ++ "**")) fun exponent =>
          power (operand.signed (function operand.base exponent)) := by
        intro exponent value spells
        rw [String.append_assoc]
        exact precedesPower _ _ (language.power isPower isOperand spells)
      rw [Chain.valueFrom]
      simpa [String.append_assoc] using inductionHypothesis precedesSum precedesProduct precedes

namespace IsText

variable {text left right : String} {chain leftChain rightChain : Chain K}

/-- The text of a chain spells the value of the chain. -/
theorem spells (isText : language.IsText text chain) : language.Spells 5 text chain.value := by
  rw [Chain.value]
  simpa using Writes.spells isText (Grammar.precedes_nothing (by decide))
    (Grammar.precedes_nothing (by decide)) (Grammar.precedes_nothing (by decide))

theorem operand {operand : SignedOperand K} (isOperand : language.IsOperand operand text) :
    language.IsText text ⟨operand, []⟩ :=
  .last isOperand

theorem single {value : K} (spells : language.Spells language.tightest text value) :
    language.IsText text (.single value) :=
  .operand (language.unsigned spells)

theorem enclosed (needed : Bool) (isText : language.IsText text chain) :
    language.IsText (grouped needed text) (chain.enclosed needed) := by
  cases needed with
  | true => exact .operand (language.unsigned isText.spells.parenthesized)
  | false => exact isText

theorem basic (operator : Basic) (isTextLeft : language.IsText left leftChain)
    (isTextRight : language.IsText right rightChain) :
    language.IsText (left ++ (Symbol.binary operator.binary).text ++ right)
      (Chain.join (.basic operator) leftChain rightChain) := by
  obtain ⟨first, rest⟩ := leftChain
  change language.Writes left first rest at isTextLeft
  change language.Writes _ first (rest ++ _)
  induction isTextLeft with
  | last isOperand => exact .basic operator isOperand isTextRight
  | basic other isOperand _ inductionHypothesis =>
      simpa [String.append_assoc] using Writes.basic other isOperand inductionHypothesis
  | power isPower isOperand _ inductionHypothesis =>
      simpa [String.append_assoc] using Writes.power isPower isOperand inductionHypothesis

theorem power {function : K → K → K} (isPower : language.IsPower function)
    (isTextLeft : language.IsText left leftChain)
    (isTextRight : language.IsText right rightChain) :
    language.IsText (left ++ "**" ++ right)
      (Chain.join (.power function) leftChain rightChain) := by
  obtain ⟨first, rest⟩ := leftChain
  change language.Writes left first rest at isTextLeft
  change language.Writes _ first (rest ++ _)
  induction isTextLeft with
  | last isOperand => exact .power isPower isOperand isTextRight
  | basic other isOperand _ inductionHypothesis =>
      simpa [String.append_assoc] using Writes.basic other isOperand inductionHypothesis
  | power isOtherPower isOperand _ inductionHypothesis =>
      simpa [String.append_assoc] using Writes.power isOtherPower isOperand inductionHypothesis

end IsText

end Language

end Values

end ComponentModel
