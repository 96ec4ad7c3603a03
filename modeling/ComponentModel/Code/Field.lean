import ComponentModel.Equation.Operator

/-!
# Fields of profiles

Everything that generated code is made of is a field of a profile: texts and templates, flags that
say which operators the language has, and the functions that stand in for operators it lacks.
Fields have a fixed order and a key by which documents name them.

Templates hold the placeholders `<CODE>`, `<NAME>`, `<UNITS>`, `<COMPONENT>`, `<TYPE>`,
`<STATE_COUNT>`, `<VARIABLE_COUNT>`, `<ARRAY_SIZE>`, `<NAME_SIZE>`, `<UNITS_SIZE>`,
`<COMPONENT_SIZE>`, `<CONDITION>`, `<IF_STATEMENT>`, `<ELSE_STATEMENT>`, `<INTERFACE_FILE_NAME>`,
`<PROFILE_INFORMATION>` and `<VERSION>`.
-/

namespace ComponentModel.Code

open Equation (MathFunction)

/-- A text or template of a profile. -/
inductive TextField where
  | assignment
  | equal
  | unequal
  | less
  | atMost
  | greater
  | atLeast
  | conjunction
  | disjunction
  | exclusive
  | negation
  | plus
  | minus
  | times
  | divide
  | power
  | squareRoot
  | square
  | absolute
  | exp
  | ln
  | commonLogarithm
  | ceiling
  | floor
  | minimum
  | maximum
  | remainder
  | sin
  | cos
  | tan
  | sec
  | csc
  | cot
  | sinh
  | cosh
  | tanh
  | sech
  | csch
  | coth
  | asin
  | acos
  | atan
  | asec
  | acsc
  | acot
  | asinh
  | acosh
  | atanh
  | asech
  | acsch
  | acoth
  | conditionalIf
  | conditionalElse
  | piecewiseIf
  | piecewiseElse
  | truth
  | falsity
  | eulerNumber
  | pi
  | infinity
  | undefined
  | comment
  | originComment
  | interfaceFileName
  | interfaceHeader
  | implementationHeader
  | interfaceVersion
  | implementationVersion
  | interfaceGeneratorVersion
  | implementationGeneratorVersion
  | interfaceStateCount
  | implementationStateCount
  | interfaceVariableCount
  | implementationVariableCount
  | variableTypeObject
  | constantVariableType
  | computedConstantVariableType
  | algebraicVariableType
  | variableInfoObject
  | variableInfoWithTypeObject
  | interfaceIntegrationInfo
  | implementationIntegrationInfo
  | interfaceStateInfo
  | implementationStateInfo
  | interfaceVariableInfo
  | implementationVariableInfo
  | variableInfoEntry
  | variableInfoWithTypeEntry
  | integrationVariable
  | statesArray
  | ratesArray
  | variablesArray
  | returnCreatedArray
  | interfaceCreateStatesArrayMethod
  | implementationCreateStatesArrayMethod
  | interfaceCreateVariablesArrayMethod
  | implementationCreateVariablesArrayMethod
  | interfaceDeleteArrayMethod
  | implementationDeleteArrayMethod
  | interfaceInitializeStatesAndConstantsMethod
  | implementationInitializeStatesAndConstantsMethod
  | interfaceComputeComputedConstantsMethod
  | implementationComputeComputedConstantsMethod
  | interfaceComputeRatesMethod
  | implementationComputeRatesMethod
  | interfaceComputeVariablesMethod
  | implementationComputeVariablesMethod
  | emptyMethod
  | indent
  | openArrayInitializer
  | closeArrayInitializer
  | openArray
  | closeArray
  | arrayElementSeparator
  | stringDelimiter
  | commandSeparator
  deriving Repr, DecidableEq

/-- The key of a text. -/
def TextField.key : TextField → String
  | .assignment => "assignment_string"
  | .equal => "eq_string"
  | .unequal => "neq_string"
  | .less => "lt_string"
  | .atMost => "leq_string"
  | .greater => "gt_string"
  | .atLeast => "geq_string"
  | .conjunction => "and_string"
  | .disjunction => "or_string"
  | .exclusive => "xor_string"
  | .negation => "not_string"
  | .plus => "plus_string"
  | .minus => "minus_string"
  | .times => "times_string"
  | .divide => "divide_string"
  | .power => "power_string"
  | .squareRoot => "square_root_string"
  | .square => "square_string"
  | .absolute => "absolute_value_string"
  | .exp => "exponential_string"
  | .ln => "natural_logarithm_string"
  | .commonLogarithm => "common_logarithm_string"
  | .ceiling => "ceiling_string"
  | .floor => "floor_string"
  | .minimum => "min_string"
  | .maximum => "max_string"
  | .remainder => "remainder_string"
  | .sin => "sin_string"
  | .cos => "cos_string"
  | .tan => "tan_string"
  | .sec => "sec_string"
  | .csc => "csc_string"
  | .cot => "cot_string"
  | .sinh => "sinh_string"
  | .cosh => "cosh_string"
  | .tanh => "tanh_string"
  | .sech => "sech_string"
  | .csch => "csch_string"
  | .coth => "coth_string"
  | .asin => "asin_string"
  | .acos => "acos_string"
  | .atan => "atan_string"
  | .asec => "asec_string"
  | .acsc => "acsc_string"
  | .acot => "acot_string"
  | .asinh => "asinh_string"
  | .acosh => "acosh_string"
  | .atanh => "atanh_string"
  | .asech => "asech_string"
  | .acsch => "acsch_string"
  | .acoth => "acoth_string"
  | .conditionalIf => "conditional_operator_if_string"
  | .conditionalElse => "conditional_operator_else_string"
  | .piecewiseIf => "piecewise_if_string"
  | .piecewiseElse => "piecewise_else_string"
  | .truth => "true_string"
  | .falsity => "false_string"
  | .eulerNumber => "e_string"
  | .pi => "pi_string"
  | .infinity => "inf_string"
  | .undefined => "nan_string"
  | .comment => "comment_string"
  | .originComment => "origin_comment_string"
  | .interfaceFileName => "interface_file_name_string"
  | .interfaceHeader => "interface_header_string"
  | .implementationHeader => "implementation_header_string"
  | .interfaceVersion => "interface_version_string"
  | .implementationVersion => "implementation_version_string"
  | .interfaceGeneratorVersion => "interface_cellgen_version_string"
  | .implementationGeneratorVersion => "implementation_cellgen_version_string"
  | .interfaceStateCount => "interface_state_count_string"
  | .implementationStateCount => "implementation_state_count_string"
  | .interfaceVariableCount => "interface_variable_count_string"
  | .implementationVariableCount => "implementation_variable_count_string"
  | .variableTypeObject => "variable_type_object_string"
  | .constantVariableType => "constant_variable_type_string"
  | .computedConstantVariableType => "computed_constant_variable_type_string"
  | .algebraicVariableType => "algebraic_variable_type_string"
  | .variableInfoObject => "variable_info_object_string"
  | .variableInfoWithTypeObject => "variable_info_with_type_object_string"
  | .interfaceIntegrationInfo => "interface_voi_info_string"
  | .implementationIntegrationInfo => "implementation_voi_info_string"
  | .interfaceStateInfo => "interface_state_info_string"
  | .implementationStateInfo => "implementation_state_info_string"
  | .interfaceVariableInfo => "interface_variable_info_string"
  | .implementationVariableInfo => "implementation_variable_info_string"
  | .variableInfoEntry => "variable_info_entry_string"
  | .variableInfoWithTypeEntry => "variable_info_with_type_entry_string"
  | .integrationVariable => "voi_string"
  | .statesArray => "states_array_string"
  | .ratesArray => "rates_array_string"
  | .variablesArray => "variables_array_string"
  | .returnCreatedArray => "return_created_array_string"
  | .interfaceCreateStatesArrayMethod => "interface_create_states_array_method_string"
  | .implementationCreateStatesArrayMethod => "implementation_create_states_array_method_string"
  | .interfaceCreateVariablesArrayMethod => "interface_create_variables_array_method_string"
  | .implementationCreateVariablesArrayMethod =>
      "implementation_create_variables_array_method_string"
  | .interfaceDeleteArrayMethod => "interface_delete_array_method_string"
  | .implementationDeleteArrayMethod => "implementation_delete_array_method_string"
  | .interfaceInitializeStatesAndConstantsMethod =>
      "interface_initialize_states_and_constants_method_string"
  | .implementationInitializeStatesAndConstantsMethod =>
      "implementation_initialize_states_and_constants_method_string"
  | .interfaceComputeComputedConstantsMethod => "interface_compute_computed_constants_method_string"
  | .implementationComputeComputedConstantsMethod =>
      "implementation_compute_computed_constants_method_string"
  | .interfaceComputeRatesMethod => "interface_compute_rates_method_string"
  | .implementationComputeRatesMethod => "implementation_compute_rates_method_string"
  | .interfaceComputeVariablesMethod => "interface_compute_variables_method_string"
  | .implementationComputeVariablesMethod => "implementation_compute_variables_method_string"
  | .emptyMethod => "empty_method_string"
  | .indent => "indent_string"
  | .openArrayInitializer => "open_array_initializer_string"
  | .closeArrayInitializer => "close_array_initializer_string"
  | .openArray => "open_array_string"
  | .closeArray => "close_array_string"
  | .arrayElementSeparator => "array_element_separator_string"
  | .stringDelimiter => "string_delimiter_string"
  | .commandSeparator => "command_separator_string"

/-- Whether the language has an operator or a construct of its own. -/
inductive FlagField where
  | equal
  | unequal
  | less
  | atMost
  | greater
  | atLeast
  | conjunction
  | disjunction
  | exclusive
  | negation
  | power
  | conditional
  | interface
  deriving Repr, DecidableEq

/-- The key of a flag. -/
def FlagField.key : FlagField → String
  | .equal => "has_eq_operator"
  | .unequal => "has_neq_operator"
  | .less => "has_lt_operator"
  | .atMost => "has_leq_operator"
  | .greater => "has_gt_operator"
  | .atLeast => "has_geq_operator"
  | .conjunction => "has_and_operator"
  | .disjunction => "has_or_operator"
  | .exclusive => "has_xor_operator"
  | .negation => "has_not_operator"
  | .power => "has_power_operator"
  | .conditional => "has_conditional_operator"
  | .interface => "has_interface"

/-- The key of the definition of a function. -/
def functionKey : MathFunction → String
  | .equal => "eq_function"
  | .unequal => "neq_function"
  | .less => "lt_function"
  | .atMost => "leq_function"
  | .greater => "gt_function"
  | .atLeast => "geq_function"
  | .conjunction => "and_function"
  | .disjunction => "or_function"
  | .exclusive => "xor_function"
  | .negation => "not_function"
  | .minimum => "min_function"
  | .maximum => "max_function"
  | .sec => "sec_function"
  | .csc => "csc_function"
  | .cot => "cot_function"
  | .sech => "sech_function"
  | .csch => "csch_function"
  | .coth => "coth_function"
  | .asec => "asec_function"
  | .acsc => "acsc_function"
  | .acot => "acot_function"
  | .asech => "asech_function"
  | .acsch => "acsch_function"
  | .acoth => "acoth_function"

/-- A field of a profile. -/
inductive Field where
  | kind
  | text (field : TextField)
  | flag (field : FlagField)
  | function (function : MathFunction)
  deriving Repr, DecidableEq

namespace Field

/-- The key of a field. -/
def key : Field → String
  | kind => "kind"
  | text wanted => wanted.key
  | flag wanted => wanted.key
  | function wanted => functionKey wanted

/-- All fields, in order. -/
def all : List Field :=
  [.kind, .text .assignment, .text .equal, .text .unequal, .text .less, .text .atMost,
   .text .greater, .text .atLeast, .text .conjunction, .text .disjunction, .text .exclusive,
   .text .negation, .flag .equal, .flag .unequal, .flag .less, .flag .atMost, .flag .greater,
   .flag .atLeast, .flag .conjunction, .flag .disjunction, .flag .exclusive, .flag .negation,
   .text .plus, .text .minus, .text .times, .text .divide, .text .power, .text .squareRoot,
   .text .square, .text .absolute, .text .exp, .text .ln, .text .commonLogarithm, .text .ceiling,
   .text .floor, .text .minimum, .text .maximum, .text .remainder, .flag .power, .text .sin,
   .text .cos, .text .tan, .text .sec, .text .csc, .text .cot, .text .sinh, .text .cosh,
   .text .tanh, .text .sech, .text .csch, .text .coth, .text .asin, .text .acos, .text .atan,
   .text .asec, .text .acsc, .text .acot, .text .asinh, .text .acosh, .text .atanh, .text .asech,
   .text .acsch, .text .acoth, .text .conditionalIf, .text .conditionalElse, .text .piecewiseIf,
   .text .piecewiseElse, .flag .conditional, .text .truth, .text .falsity, .text .eulerNumber,
   .text .pi, .text .infinity, .text .undefined, .function .equal, .function .unequal,
   .function .less, .function .atMost, .function .greater, .function .atLeast,
   .function .conjunction, .function .disjunction, .function .exclusive, .function .negation,
   .function .minimum, .function .maximum, .function .sec, .function .csc, .function .cot,
   .function .sech, .function .csch, .function .coth, .function .asec, .function .acsc,
   .function .acot, .function .asech, .function .acsch, .function .acoth, .text .comment,
   .text .originComment, .text .interfaceFileName, .text .interfaceHeader,
   .text .implementationHeader, .text .interfaceVersion, .text .implementationVersion,
   .text .interfaceGeneratorVersion, .text .implementationGeneratorVersion,
   .text .interfaceStateCount, .text .implementationStateCount, .text .interfaceVariableCount,
   .text .implementationVariableCount, .text .variableTypeObject, .text .constantVariableType,
   .text .computedConstantVariableType, .text .algebraicVariableType, .text .variableInfoObject,
   .text .variableInfoWithTypeObject, .text .interfaceIntegrationInfo,
   .text .implementationIntegrationInfo, .text .interfaceStateInfo,
   .text .implementationStateInfo, .text .interfaceVariableInfo,
   .text .implementationVariableInfo, .text .variableInfoEntry, .text .variableInfoWithTypeEntry,
   .text .integrationVariable, .text .statesArray, .text .ratesArray, .text .variablesArray,
   .text .returnCreatedArray, .text .interfaceCreateStatesArrayMethod,
   .text .implementationCreateStatesArrayMethod, .text .interfaceCreateVariablesArrayMethod,
   .text .implementationCreateVariablesArrayMethod, .text .interfaceDeleteArrayMethod,
   .text .implementationDeleteArrayMethod, .text .interfaceInitializeStatesAndConstantsMethod,
   .text .implementationInitializeStatesAndConstantsMethod,
   .text .interfaceComputeComputedConstantsMethod,
   .text .implementationComputeComputedConstantsMethod, .text .interfaceComputeRatesMethod,
   .text .implementationComputeRatesMethod, .text .interfaceComputeVariablesMethod,
   .text .implementationComputeVariablesMethod, .text .emptyMethod, .text .indent,
   .text .openArrayInitializer, .text .closeArrayInitializer, .text .openArray,
   .text .closeArray, .text .arrayElementSeparator, .text .stringDelimiter,
   .text .commandSeparator, .flag .interface]

/-- The field of a key. -/
def ofKey? (key : String) : Option Field :=
  all.find? fun field => field.key == key

end Field

end ComponentModel.Code
