import ComponentModel.Code.Profile

/-!
# Default profiles

There are two default profiles. One writes a C header and a C source file, the other a single
Python module.
-/

namespace ComponentModel.Code

open Equation (MathFunction)

namespace CDefaults

/-- The parts of a function of one argument. -/
def unary (name body : String) : HelperFunction :=
  ⟨"extern double " ++ name ++ "(double x);\n",
   "double " ++ name ++ "(double x)\n\x7b\n    " ++ body ++ "\n\x7d\n"⟩

/-- The parts of a function of two arguments. -/
def binary (name body : String) : HelperFunction :=
  ⟨"extern double " ++ name ++ "(double x, double y);\n",
   "double " ++ name ++ "(double x, double y)\n\x7b\n    " ++ body ++ "\n\x7d\n"⟩

/-- The texts and templates. -/
def text : TextField → String
  | .assignment => " = "
  | .equal => " == "
  | .unequal => " != "
  | .less => " < "
  | .atMost => " <= "
  | .greater => " > "
  | .atLeast => " >= "
  | .conjunction => " && "
  | .disjunction => " || "
  | .exclusive => "xor"
  | .negation => "!"
  | .plus => "+"
  | .minus => "-"
  | .times => "*"
  | .divide => "/"
  | .power => "pow"
  | .squareRoot => "sqrt"
  | .square => ""
  | .absolute => "fabs"
  | .exp => "exp"
  | .ln => "log"
  | .commonLogarithm => "log10"
  | .ceiling => "ceil"
  | .floor => "floor"
  | .minimum => "min"
  | .maximum => "max"
  | .remainder => "fmod"
  | .sin => "sin"
  | .cos => "cos"
  | .tan => "tan"
  | .sec => "sec"
  | .csc => "csc"
  | .cot => "cot"
  | .sinh => "sinh"
  | .cosh => "cosh"
  | .tanh => "tanh"
  | .sech => "sech"
  | .csch => "csch"
  | .coth => "coth"
  | .asin => "asin"
  | .acos => "acos"
  | .atan => "atan"
  | .asec => "asec"
  | .acsc => "acsc"
  | .acot => "acot"
  | .asinh => "asinh"
  | .acosh => "acosh"
  | .atanh => "atanh"
  | .asech => "asech"
  | .acsch => "acsch"
  | .acoth => "acoth"
  | .conditionalIf => "(<CONDITION>)?<IF_STATEMENT>"
  | .conditionalElse => ":<ELSE_STATEMENT>"
  | .piecewiseIf => ""
  | .piecewiseElse => ""
  | .truth => "1.0"
  | .falsity => "0.0"
  | .eulerNumber => "2.71828182845905"
  | .pi => "3.14159265358979"
  | .infinity => "1.0/0.0"
  | .undefined => "sqrt(-1.0)"
  | .comment => "/* <CODE> */\n"
  | .originComment =>
      "The content of this file was generated using <PROFILE_INFORMATION> cellgen <VERSION>."
  | .interfaceFileName => "model.h"
  | .interfaceHeader => "#pragma once\n\n#include <stddef.h>\n"
  | .implementationHeader =>
      "#include \"<INTERFACE_FILE_NAME>\"\n\n#include <math.h>\n#include <stdlib.h>\n"
  | .interfaceVersion => "extern const char VERSION[];\n"
  | .implementationVersion => "const char VERSION[] = \"0.1.0\";\n"
  | .interfaceGeneratorVersion => "extern const char CELLGEN_VERSION[];\n"
  | .implementationGeneratorVersion => "const char CELLGEN_VERSION[] = \"<VERSION>\";\n"
  | .interfaceStateCount => "extern const size_t STATE_COUNT;\n"
  | .implementationStateCount => "const size_t STATE_COUNT = <STATE_COUNT>;\n"
  | .interfaceVariableCount => "extern const size_t VARIABLE_COUNT;\n"
  | .implementationVariableCount => "const size_t VARIABLE_COUNT = <VARIABLE_COUNT>;\n"
  | .variableTypeObject =>
      "typedef enum \x7b\n    CONSTANT,\n    COMPUTED_CONSTANT,\n    ALGEBRAIC\n" ++
      "\x7d VariableType;\n"
  | .constantVariableType => "CONSTANT"
  | .computedConstantVariableType => "COMPUTED_CONSTANT"
  | .algebraicVariableType => "ALGEBRAIC"
  | .variableInfoObject =>
      "typedef struct \x7b\n    char name[<NAME_SIZE>];\n    char units[<UNITS_SIZE>];\n" ++
      "    char component[<COMPONENT_SIZE>];\n\x7d VariableInfo;\n"
  | .variableInfoWithTypeObject =>
      "typedef struct \x7b\n    char name[<NAME_SIZE>];\n    char units[<UNITS_SIZE>];\n" ++
      "    char component[<COMPONENT_SIZE>];\n    VariableType type;\n" ++
      "\x7d VariableInfoWithType;\n"
  | .interfaceIntegrationInfo => "extern const VariableInfo VOI_INFO;\n"
  | .implementationIntegrationInfo => "const VariableInfo VOI_INFO = <CODE>;\n"
  | .interfaceStateInfo => "extern const VariableInfo STATE_INFO[];\n"
  | .implementationStateInfo => "const VariableInfo STATE_INFO[] = \x7b\n<CODE>\x7d;\n"
  | .interfaceVariableInfo => "extern const VariableInfoWithType VARIABLE_INFO[];\n"
  | .implementationVariableInfo =>
      "const VariableInfoWithType VARIABLE_INFO[] = \x7b\n<CODE>\x7d;\n"
  | .variableInfoEntry => "\x7b\"<NAME>\", \"<UNITS>\", \"<COMPONENT>\"\x7d"
  | .variableInfoWithTypeEntry => "\x7b\"<NAME>\", \"<UNITS>\", \"<COMPONENT>\", <TYPE>\x7d"
  | .integrationVariable => "voi"
  | .statesArray => "states"
  | .ratesArray => "rates"
  | .variablesArray => "variables"
  | .returnCreatedArray => "return (double *) malloc(<ARRAY_SIZE>*sizeof(double));\n"
  | .interfaceCreateStatesArrayMethod => "double * createStatesArray();\n"
  | .implementationCreateStatesArrayMethod => "double * createStatesArray()\n\x7b\n<CODE>\x7d\n"
  | .interfaceCreateVariablesArrayMethod => "double * createVariablesArray();\n"
  | .implementationCreateVariablesArrayMethod =>
      "double * createVariablesArray()\n\x7b\n<CODE>\x7d\n"
  | .interfaceDeleteArrayMethod => "void deleteArray(double *array);\n"
  | .implementationDeleteArrayMethod =>
      "void deleteArray(double *array)\n\x7b\n    free(array);\n\x7d\n"
  | .interfaceInitializeStatesAndConstantsMethod =>
      "void initializeStatesAndConstants(double *states, double *variables);\n"
  | .implementationInitializeStatesAndConstantsMethod =>
      "void initializeStatesAndConstants(double *states, double *variables)\n\x7b\n" ++
      "<CODE>\x7d\n"
  | .interfaceComputeComputedConstantsMethod =>
      "void computeComputedConstants(double *variables);\n"
  | .implementationComputeComputedConstantsMethod =>
      "void computeComputedConstants(double *variables)\n\x7b\n<CODE>\x7d\n"
  | .interfaceComputeRatesMethod =>
      "void computeRates(double voi, double *states, double *rates, double *variables);\n"
  | .implementationComputeRatesMethod =>
      "void computeRates(double voi, double *states, double *rates, double *variables)\n" ++
      "\x7b\n<CODE>\x7d\n"
  | .interfaceComputeVariablesMethod =>
      "void computeVariables(double voi, double *states, double *rates, double *variables);\n"
  | .implementationComputeVariablesMethod =>
      "void computeVariables(double voi, double *states, double *rates, double *variables)\n" ++
      "\x7b\n<CODE>\x7d\n"
  | .emptyMethod => ""
  | .indent => "    "
  | .openArrayInitializer => "\x7b"
  | .closeArrayInitializer => "\x7d"
  | .openArray => "["
  | .closeArray => "]"
  | .arrayElementSeparator => ","
  | .stringDelimiter => "\""
  | .commandSeparator => ";"

/-- What the language has of its own. -/
def flag : FlagField → Bool
  | .equal => true
  | .unequal => true
  | .less => true
  | .atMost => true
  | .greater => true
  | .atLeast => true
  | .conjunction => true
  | .disjunction => true
  | .exclusive => false
  | .negation => true
  | .power => false
  | .conditional => true
  | .interface => true

/-- The functions that stand in for what the language lacks. -/
def function : MathFunction → HelperFunction
  | .equal => .none
  | .unequal => .none
  | .less => .none
  | .atMost => .none
  | .greater => .none
  | .atLeast => .none
  | .conjunction => .none
  | .disjunction => .none
  | .exclusive => binary "xor" "return (x != 0.0) ^ (y != 0.0);"
  | .negation => .none
  | .minimum => binary "min" "return (x < y)?x:y;"
  | .maximum => binary "max" "return (x > y)?x:y;"
  | .sec => unary "sec" "return 1.0/cos(x);"
  | .csc => unary "csc" "return 1.0/sin(x);"
  | .cot => unary "cot" "return 1.0/tan(x);"
  | .sech => unary "sech" "return 1.0/cosh(x);"
  | .csch => unary "csch" "return 1.0/sinh(x);"
  | .coth => unary "coth" "return 1.0/tanh(x);"
  | .asec => unary "asec" "return acos(1.0/x);"
  | .acsc => unary "acsc" "return asin(1.0/x);"
  | .acot => unary "acot" "return atan(1.0/x);"
  | .asech =>
      unary "asech"
        ("double oneOverX = 1.0/x;\n\n" ++
          "    return log(oneOverX+sqrt(oneOverX*oneOverX-1.0));")
  | .acsch =>
      unary "acsch"
        ("double oneOverX = 1.0/x;\n\n" ++
          "    return log(oneOverX+sqrt(oneOverX*oneOverX+1.0));")
  | .acoth =>
      unary "acoth"
        ("double oneOverX = 1.0/x;\n\n" ++
          "    return 0.5*log((1.0+oneOverX)/(1.0-oneOverX));")

end CDefaults

namespace PythonDefaults

/-- A function of one argument. -/
def unary (name body : String) : HelperFunction :=
  ⟨"", "def " ++ name ++ "(x):\n    " ++ body ++ "\n"⟩

/-- A function of two arguments. -/
def binary (name body : String) : HelperFunction :=
  ⟨"", "def " ++ name ++ "(x, y):\n    " ++ body ++ "\n"⟩

/-- The texts and templates. -/
def text : TextField → String
  | .assignment => " = "
  | .equal => "eq_func"
  | .unequal => "neq_func"
  | .less => "lt_func"
  | .atMost => "leq_func"
  | .greater => "gt_func"
  | .atLeast => "geq_func"
  | .conjunction => "and_func"
  | .disjunction => "or_func"
  | .exclusive => "xor_func"
  | .negation => "not_func"
  | .plus => "+"
  | .minus => "-"
  | .times => "*"
  | .divide => "/"
  | .power => "**"
  | .squareRoot => "sqrt"
  | .square => ""
  | .absolute => "fabs"
  | .exp => "exp"
  | .ln => "log"
  | .commonLogarithm => "log10"
  | .ceiling => "ceil"
  | .floor => "floor"
  | .minimum => "min"
  | .maximum => "max"
  | .remainder => "fmod"
  | .sin => "sin"
  | .cos => "cos"
  | .tan => "tan"
  | .sec => "sec"
  | .csc => "csc"
  | .cot => "cot"
  | .sinh => "sinh"
  | .cosh => "cosh"
  | .tanh => "tanh"
  | .sech => "sech"
  | .csch => "csch"
  | .coth => "coth"
  | .asin => "asin"
  | .acos => "acos"
  | .atan => "atan"
  | .asec => "asec"
  | .acsc => "acsc"
  | .acot => "acot"
  | .asinh => "asinh"
  | .acosh => "acosh"
  | .atanh => "atanh"
  | .asech => "asech"
  | .acsch => "acsch"
  | .acoth => "acoth"
  | .conditionalIf => "<IF_STATEMENT> if <CONDITION>"
  | .conditionalElse => " else <ELSE_STATEMENT>"
  | .piecewiseIf => ""
  | .piecewiseElse => ""
  | .truth => "1.0"
  | .falsity => "0.0"
  | .eulerNumber => "e"
  | .pi => "pi"
  | .infinity => "inf"
  | .undefined => "nan"
  | .comment => "# <CODE>\n"
  | .originComment =>
      "The content of this file was generated using <PROFILE_INFORMATION> cellgen <VERSION>."
  | .interfaceFileName => ""
  | .interfaceHeader => ""
  | .implementationHeader => "from enum import Enum\nfrom math import *\n\n"
  | .interfaceVersion => ""
  | .implementationVersion => "__version__ = \"0.1.0\"\n"
  | .interfaceGeneratorVersion => ""
  | .implementationGeneratorVersion => "CELLGEN_VERSION = \"<VERSION>\"\n"
  | .interfaceStateCount => ""
  | .implementationStateCount => "STATE_COUNT = <STATE_COUNT>\n"
  | .interfaceVariableCount => ""
  | .implementationVariableCount => "VARIABLE_COUNT = <VARIABLE_COUNT>\n"
  | .variableTypeObject =>
      "class VariableType(Enum):\n    CONSTANT = 1\n    COMPUTED_CONSTANT = 2\n" ++
      "    ALGEBRAIC = 3\n"
  | .constantVariableType => "VariableType.CONSTANT"
  | .computedConstantVariableType => "VariableType.COMPUTED_CONSTANT"
  | .algebraicVariableType => "VariableType.ALGEBRAIC"
  | .variableInfoObject => ""
  | .variableInfoWithTypeObject => ""
  | .interfaceIntegrationInfo => ""
  | .implementationIntegrationInfo => "VOI_INFO = <CODE>\n"
  | .interfaceStateInfo => ""
  | .implementationStateInfo => "STATE_INFO = [\n<CODE>]\n"
  | .interfaceVariableInfo => ""
  | .implementationVariableInfo => "VARIABLE_INFO = [\n<CODE>]\n"
  | .variableInfoEntry =>
      "\x7b\"name\": \"<NAME>\", \"units\": \"<UNITS>\", \"component\": \"<COMPONENT>\"\x7d"
  | .variableInfoWithTypeEntry =>
      "\x7b\"name\": \"<NAME>\", \"units\": \"<UNITS>\", " ++
        "\"component\": \"<COMPONENT>\", \"type\": " ++
      "<TYPE>\x7d"
  | .integrationVariable => "voi"
  | .statesArray => "states"
  | .ratesArray => "rates"
  | .variablesArray => "variables"
  | .returnCreatedArray => "return [nan]*<ARRAY_SIZE>\n"
  | .interfaceCreateStatesArrayMethod => ""
  | .implementationCreateStatesArrayMethod => "def create_states_array():\n<CODE>"
  | .interfaceCreateVariablesArrayMethod => ""
  | .implementationCreateVariablesArrayMethod => "def create_variables_array():\n<CODE>"
  | .interfaceDeleteArrayMethod => ""
  | .implementationDeleteArrayMethod => ""
  | .interfaceInitializeStatesAndConstantsMethod => ""
  | .implementationInitializeStatesAndConstantsMethod =>
      "def initialize_states_and_constants(states, variables):\n<CODE>"
  | .interfaceComputeComputedConstantsMethod => ""
  | .implementationComputeComputedConstantsMethod =>
      "def compute_computed_constants(variables):\n<CODE>"
  | .interfaceComputeRatesMethod => ""
  | .implementationComputeRatesMethod =>
      "def compute_rates(voi, states, rates, variables):\n<CODE>"
  | .interfaceComputeVariablesMethod => ""
  | .implementationComputeVariablesMethod =>
      "def compute_variables(voi, states, rates, variables):\n<CODE>"
  | .emptyMethod => "pass\n"
  | .indent => "    "
  | .openArrayInitializer => "["
  | .closeArrayInitializer => "]"
  | .openArray => "["
  | .closeArray => "]"
  | .arrayElementSeparator => ","
  | .stringDelimiter => "\""
  | .commandSeparator => ""

/-- What the language has of its own. -/
def flag : FlagField → Bool
  | .equal => false
  | .unequal => false
  | .less => false
  | .atMost => false
  | .greater => false
  | .atLeast => false
  | .conjunction => false
  | .disjunction => false
  | .exclusive => false
  | .negation => false
  | .power => true
  | .conditional => true
  | .interface => false

/-- The functions that stand in for what the language lacks. -/
def function : MathFunction → HelperFunction
  | .equal => binary "eq_func" "return 1.0 if x == y else 0.0"
  | .unequal => binary "neq_func" "return 1.0 if x != y else 0.0"
  | .less => binary "lt_func" "return 1.0 if x < y else 0.0"
  | .atMost => binary "leq_func" "return 1.0 if x <= y else 0.0"
  | .greater => binary "gt_func" "return 1.0 if x > y else 0.0"
  | .atLeast => binary "geq_func" "return 1.0 if x >= y else 0.0"
  | .conjunction => binary "and_func" "return 1.0 if bool(x) & bool(y) else 0.0"
  | .disjunction => binary "or_func" "return 1.0 if bool(x) | bool(y) else 0.0"
  | .exclusive => binary "xor_func" "return 1.0 if bool(x) ^ bool(y) else 0.0"
  | .negation => unary "not_func" "return 1.0 if not bool(x) else 0.0"
  | .minimum => .none
  | .maximum => .none
  | .sec => unary "sec" "return 1.0/cos(x)"
  | .csc => unary "csc" "return 1.0/sin(x)"
  | .cot => unary "cot" "return 1.0/tan(x)"
  | .sech => unary "sech" "return 1.0/cosh(x)"
  | .csch => unary "csch" "return 1.0/sinh(x)"
  | .coth => unary "coth" "return 1.0/tanh(x)"
  | .asec => unary "asec" "return acos(1.0/x)"
  | .acsc => unary "acsc" "return asin(1.0/x)"
  | .acot => unary "acot" "return atan(1.0/x)"
  | .asech =>
      unary "asech"
        ("one_over_x = 1.0/x\n\n" ++
          "    return log(one_over_x+sqrt(one_over_x*one_over_x-1.0))")
  | .acsch =>
      unary "acsch"
        ("one_over_x = 1.0/x\n\n" ++
          "    return log(one_over_x+sqrt(one_over_x*one_over_x+1.0))")
  | .acoth =>
      unary "acoth"
        ("one_over_x = 1.0/x\n\n" ++
          "    return 0.5*log((1.0+one_over_x)/(1.0-one_over_x))")

end PythonDefaults

/-- The default profile of a kind. -/
def Profile.ofKind : ProfileKind → Profile
  | .c => ⟨.c, CDefaults.text, CDefaults.flag, CDefaults.function⟩
  | .python => ⟨.python, PythonDefaults.text, PythonDefaults.flag, PythonDefaults.function⟩

/-- Whether a field differs from the default of the profile's kind. -/
def Profile.isModifiedIn (profile : Profile) (field : Field) : Bool :=
  !profile.agrees (.ofKind profile.kind) field

/-- Whether any field differs from the default of the profile's kind. -/
def Profile.isModified (profile : Profile) : Bool :=
  Field.all.any profile.isModifiedIn

end ComponentModel.Code
