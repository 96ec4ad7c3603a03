/-!
# Operators

Everything in an equation that is not a variable or a number: operators, functions, constants and
the words that qualify them. Twenty-four of them are functions that a programming language may not
have, so that generated code has to bring them along.
-/

namespace ComponentModel.Equation

/-- An operator, function, constant or qualifier. -/
inductive Operator where
  /-- An equality that stands for a whole equation. -/
  | assignment
  | equal
  | unequal
  | less
  | atMost
  | greater
  | atLeast
  | conjunction
  | disjunction
  | exclusive
  | negation
  | plus
  | minus
  | times
  | divide
  | power
  | root
  | absolute
  | exp
  | ln
  | log
  | ceiling
  | floor
  | minimum
  | maximum
  | remainder
  /-- A derivative; its left child is the bound variable. -/
  | diff
  | sin
  | cos
  | tan
  | sec
  | csc
  | cot
  | sinh
  | cosh
  | tanh
  | sech
  | csch
  | coth
  | asin
  | acos
  | atan
  | asec
  | acsc
  | acot
  | asinh
  | acosh
  | atanh
  | asech
  | acsch
  | acoth
  /-- The first piece, and the rest of the chain. -/
  | piecewise
  /-- A value and its condition. -/
  | piece
  | otherwise
  | degree
  | logbase
  | bvar
  | truth
  | falsity
  | eulerNumber
  | pi
  | infinity
  | undefined
  deriving Repr, DecidableEq

namespace Operator

/-- The short name of an operator in listings. -/
def label : Operator → String
  | assignment => "Assignment"
  | equal => "Eq"
  | unequal => "Neq"
  | less => "Lt"
  | atMost => "Leq"
  | greater => "Gt"
  | atLeast => "Geq"
  | conjunction => "And"
  | disjunction => "Or"
  | exclusive => "Xor"
  | negation => "Not"
  | plus => "Plus"
  | minus => "Minus"
  | times => "Times"
  | divide => "Divide"
  | power => "Power"
  | root => "Root"
  | absolute => "Abs"
  | exp => "Exp"
  | ln => "Ln"
  | log => "Log"
  | ceiling => "Ceiling"
  | floor => "Floor"
  | minimum => "Min"
  | maximum => "Max"
  | remainder => "Rem"
  | diff => "Diff"
  | sin => "Sin"
  | cos => "Cos"
  | tan => "Tan"
  | sec => "Sec"
  | csc => "Csc"
  | cot => "Cot"
  | sinh => "Sinh"
  | cosh => "Cosh"
  | tanh => "Tanh"
  | sech => "Sech"
  | csch => "Csch"
  | coth => "Coth"
  | asin => "Asin"
  | acos => "Acos"
  | atan => "Atan"
  | asec => "Asec"
  | acsc => "Acsc"
  | acot => "Acot"
  | asinh => "Asinh"
  | acosh => "Acosh"
  | atanh => "Atanh"
  | asech => "Asech"
  | acsch => "Acsch"
  | acoth => "Acoth"
  | piecewise => "Piecewise"
  | piece => "Piece"
  | otherwise => "Otherwise"
  | degree => "Degree"
  | logbase => "Logbase"
  | bvar => "Bvar"
  | truth => "True"
  | falsity => "False"
  | eulerNumber => "E"
  | pi => "Pi"
  | infinity => "Inf"
  | undefined => "Nan"

/-- The operators, functions and constants that have an element of their own, by its name. -/
def elements : List (String × Operator) :=
  [("eq", equal), ("neq", unequal), ("lt", less), ("leq", atMost), ("gt", greater),
   ("geq", atLeast), ("and", conjunction), ("or", disjunction), ("xor", exclusive),
   ("not", negation), ("plus", plus), ("minus", minus), ("times", times), ("divide", divide),
   ("power", power), ("root", root), ("abs", absolute), ("exp", exp), ("ln", ln), ("log", log),
   ("ceiling", ceiling), ("floor", floor), ("min", minimum), ("max", maximum),
   ("rem", remainder), ("diff", diff), ("sin", sin), ("cos", cos), ("tan", tan), ("sec", sec),
   ("csc", csc), ("cot", cot), ("sinh", sinh), ("cosh", cosh), ("tanh", tanh), ("sech", sech),
   ("csch", csch), ("coth", coth), ("arcsin", asin), ("arccos", acos), ("arctan", atan),
   ("arcsec", asec), ("arccsc", acsc), ("arccot", acot), ("arcsinh", asinh), ("arccosh", acosh),
   ("arctanh", atanh), ("arcsech", asech), ("arccsch", acsch), ("arccoth", acoth),
   ("true", truth), ("false", falsity), ("exponentiale", eulerNumber), ("pi", pi),
   ("infinity", infinity), ("notanumber", undefined)]

/-- The operator of an element name. -/
def ofElement? (name : String) : Option Operator :=
  elements.lookup name

/-- Whether an element of its own stands for a constant. -/
def isConstant : Operator → Bool
  | truth | falsity | eulerNumber | pi | infinity | undefined => true
  | _ => false

end Operator

/-- A function that generated code may have to define, in the order of its definitions. -/
inductive MathFunction where
  | equal
  | unequal
  | less
  | atMost
  | greater
  | atLeast
  | conjunction
  | disjunction
  | exclusive
  | negation
  | minimum
  | maximum
  | sec
  | csc
  | cot
  | sech
  | csch
  | coth
  | asec
  | acsc
  | acot
  | asech
  | acsch
  | acoth
  deriving Repr, DecidableEq

namespace MathFunction

/-- All functions, in order. -/
def all : List MathFunction :=
  [.equal, .unequal, .less, .atMost, .greater, .atLeast, .conjunction, .disjunction, .exclusive,
   .negation, .minimum, .maximum, .sec, .csc, .cot, .sech, .csch, .coth, .asec, .acsc, .acot,
   .asech, .acsch, .acoth]

/-- The operator that a function computes. -/
def operator : MathFunction → Operator
  | equal => .equal
  | unequal => .unequal
  | less => .less
  | atMost => .atMost
  | greater => .greater
  | atLeast => .atLeast
  | conjunction => .conjunction
  | disjunction => .disjunction
  | exclusive => .exclusive
  | negation => .negation
  | minimum => .minimum
  | maximum => .maximum
  | sec => .sec
  | csc => .csc
  | cot => .cot
  | sech => .sech
  | csch => .csch
  | coth => .coth
  | asec => .asec
  | acsc => .acsc
  | acot => .acot
  | asech => .asech
  | acsch => .acsch
  | acoth => .acoth

/-- The function that computes an operator. -/
def ofOperator? (operator : Operator) : Option MathFunction :=
  all.find? fun function => function.operator == operator

end MathFunction

end ComponentModel.Equation
