import TypeEnv.Enumerated

namespace TypeEnv

inductive IntrinsicId where
  | uncheckedAddition
  | uncheckedSubtraction
  | uncheckedMultiply
  | uncheckedDivision
  | uncheckedModulus
  | uncheckedUnaryNegation
  | bitwiseAnd
  | bitwiseOr
  | bitwiseXor
  | bitwiseNot
  | bitwiseShiftLeft
  | bitwiseShiftRight
  | equals
  | notEquals
  | lessThan
  | greaterThan
  | lessThanOrEquals
  | greaterThanOrEquals
  | compare
  | hash
  | not
  | raise
  | reraise
  | failwith
  | invalidArg
  | nullArg
  | ignore
  | identity
  | fst
  | snd
  | ref
  | deref
  | assign
  | box
  | unbox
  | isNull
  | typeOf
  | typeDefOf
  | sizeOf
  | nameOf
  | range
  | rangeStep
  | lock
  | usingScope
  | toInt32
  | toInt64
  | toDouble
  | toChar
  | toString
  | toByte
  | abs
  | acos
  | asin
  | atan
  | atan2
  | ceiling
  | cos
  | cosh
  | exp
  | floor
  | log
  | log10
  | pow
  | round
  | sign
  | sin
  | sinh
  | sqrt
  | tan
  | tanh
  | truncate
  | pipeRight
  | pipeLeft
  | composeRight
  | checkedAddition
  | checkedSubtraction
  | checkedMultiply
  | checkedUnaryNegation
  | checkedToInt32
  | booleanAnd
  | booleanOr
  | addressOf
  | genericZero
  | genericOne
  | genericEquality
  | genericEqualityEr
  | genericComparison
  | genericHash
  | physicalEquality
  | physicalHash
  | enumOfValue
  | enumToValue
  | genericEqualityIntrinsic
  | genericEqualityErIntrinsic
  | genericEqualityWithComparerIntrinsic
  | genericComparisonIntrinsic
  | genericComparisonWithComparerIntrinsic
  | genericHashIntrinsic
  | genericHashWithComparerIntrinsic
  | genericLessThanIntrinsic
  | genericGreaterThanIntrinsic
  | genericLessOrEqualIntrinsic
  | genericGreaterOrEqualIntrinsic
  | getArray
  | getArray2D
  | getArray3D
  | getArray4D
  | setArray
  | setArray2D
  | setArray3D
  | setArray4D
  | getString
  | unboxGeneric
  | unboxFast
  | typeTestGeneric
  | typeTestFast
  | createInstance
  | dispose
  | makeDecimal
  | additionDynamic
  | subtractionDynamic
  | multiplyDynamic
  | divisionDynamic
  | modulusDynamic
  | bitwiseAndDynamic
  | bitwiseOrDynamic
  | exclusiveOrDynamic
  | leftShiftDynamic
  | rightShiftDynamic
  | checkedAdditionDynamic
  | checkedSubtractionDynamic
  | checkedMultiplyDynamic
  | unaryNegationDynamic
  | checkedUnaryNegationDynamic
  | unaryPlusDynamic
  | logicalNotDynamic
  | explicitDynamic
  | checkedExplicitDynamic
  | implicitDynamic
  | equalityDynamic
  | inequalityDynamic
  | lessThanDynamic
  | greaterThanDynamic
  | lessThanOrEqualDynamic
  | greaterThanOrEqualDynamic
  | genericZeroDynamic
  | genericOneDynamic
  | rangeInt32
  | rangeInt64
  | rangeUInt64
  | rangeChar
  | rangeGeneric
  | rangeStepGeneric
  | getArraySlice
  | enumerateWhile
  | enumerateThenFinally
  | enumerateUsing
  | enumerateTryWith
  | enumerateFromFunctions
  | seqCollect
  | seqDelay
  | seqAppend
  | seqSingleton
  | seqEmpty
  | seqMap
  | seqToList
  | seqToArray
  | sprintf
  | printf
  | printfn
  | failwithf
  | createSequence
  | query
  | splice
  | spliceUntyped
  | newFormat
  | liftValue
  | castQuotation
  | lazyForce
  | lazyCreate
  | queryRun
  | queryFor
  | querySelect
  | queryYield
  | queryZero
  | arrayLength
  | arrayGet
  | arrayZeroCreate
  deriving DecidableEq

namespace IntrinsicId

def all : List IntrinsicId :=
  [.uncheckedAddition, .uncheckedSubtraction, .uncheckedMultiply, .uncheckedDivision,
   .uncheckedModulus, .uncheckedUnaryNegation, .bitwiseAnd, .bitwiseOr, .bitwiseXor, .bitwiseNot,
   .bitwiseShiftLeft, .bitwiseShiftRight, .equals, .notEquals, .lessThan, .greaterThan,
   .lessThanOrEquals, .greaterThanOrEquals, .compare, .hash, .not, .raise, .reraise, .failwith,
   .invalidArg, .nullArg, .ignore, .identity, .fst, .snd, .ref, .deref, .assign, .box, .unbox,
   .isNull, .typeOf, .typeDefOf, .sizeOf, .nameOf, .range, .rangeStep, .lock, .usingScope,
   .toInt32, .toInt64, .toDouble, .toChar, .toString, .toByte, .abs, .acos, .asin, .atan, .atan2,
   .ceiling, .cos, .cosh, .exp, .floor, .log, .log10, .pow, .round, .sign, .sin, .sinh, .sqrt,
   .tan, .tanh, .truncate, .pipeRight, .pipeLeft, .composeRight, .checkedAddition,
   .checkedSubtraction, .checkedMultiply, .checkedUnaryNegation, .checkedToInt32, .booleanAnd,
   .booleanOr, .addressOf, .genericZero, .genericOne, .genericEquality, .genericEqualityEr,
   .genericComparison, .genericHash, .physicalEquality, .physicalHash, .enumOfValue, .enumToValue,
   .genericEqualityIntrinsic, .genericEqualityErIntrinsic, .genericEqualityWithComparerIntrinsic,
   .genericComparisonIntrinsic, .genericComparisonWithComparerIntrinsic, .genericHashIntrinsic,
   .genericHashWithComparerIntrinsic, .genericLessThanIntrinsic, .genericGreaterThanIntrinsic,
   .genericLessOrEqualIntrinsic, .genericGreaterOrEqualIntrinsic, .getArray, .getArray2D,
   .getArray3D, .getArray4D, .setArray, .setArray2D, .setArray3D, .setArray4D, .getString,
   .unboxGeneric, .unboxFast, .typeTestGeneric, .typeTestFast, .createInstance, .dispose,
   .makeDecimal, .additionDynamic, .subtractionDynamic, .multiplyDynamic, .divisionDynamic,
   .modulusDynamic, .bitwiseAndDynamic, .bitwiseOrDynamic, .exclusiveOrDynamic, .leftShiftDynamic,
   .rightShiftDynamic, .checkedAdditionDynamic, .checkedSubtractionDynamic,
   .checkedMultiplyDynamic, .unaryNegationDynamic, .checkedUnaryNegationDynamic,
   .unaryPlusDynamic, .logicalNotDynamic, .explicitDynamic, .checkedExplicitDynamic,
   .implicitDynamic, .equalityDynamic, .inequalityDynamic, .lessThanDynamic, .greaterThanDynamic,
   .lessThanOrEqualDynamic, .greaterThanOrEqualDynamic, .genericZeroDynamic, .genericOneDynamic,
   .rangeInt32, .rangeInt64, .rangeUInt64, .rangeChar, .rangeGeneric, .rangeStepGeneric,
   .getArraySlice, .enumerateWhile, .enumerateThenFinally, .enumerateUsing, .enumerateTryWith,
   .enumerateFromFunctions, .seqCollect, .seqDelay, .seqAppend, .seqSingleton, .seqEmpty, .seqMap,
   .seqToList, .seqToArray, .sprintf, .printf, .printfn, .failwithf, .createSequence, .query,
   .splice, .spliceUntyped, .newFormat, .liftValue, .castQuotation, .lazyForce, .lazyCreate,
   .queryRun, .queryFor, .querySelect, .queryYield, .queryZero, .arrayLength, .arrayGet,
   .arrayZeroCreate]

set_option maxRecDepth 2000 in
theorem length_all : all.length = 188 := rfl

theorem ctorIdx_lt (id : IntrinsicId) : id.ctorIdx < 188 := by
  cases id <;> decide

set_option maxRecDepth 2000 in
theorem get_ctorIdx (id : IntrinsicId) :
    all.get ⟨id.ctorIdx, Nat.lt_of_lt_of_eq id.ctorIdx_lt length_all.symm⟩ = id := by
  cases id <;> rfl

instance : Enumerated IntrinsicId where
  all := all
  index id := ⟨id.ctorIdx, Nat.lt_of_lt_of_eq id.ctorIdx_lt length_all.symm⟩
  get_index id := id.get_ctorIdx

def index (id : IntrinsicId) : Nat := id.ctorIdx

def label : IntrinsicId → String
  | .uncheckedAddition => "UncheckedAddition"
  | .uncheckedSubtraction => "UncheckedSubtraction"
  | .uncheckedMultiply => "UncheckedMultiply"
  | .uncheckedDivision => "UncheckedDivision"
  | .uncheckedModulus => "UncheckedModulus"
  | .uncheckedUnaryNegation => "UncheckedUnaryNegation"
  | .bitwiseAnd => "BitwiseAnd"
  | .bitwiseOr => "BitwiseOr"
  | .bitwiseXor => "BitwiseXor"
  | .bitwiseNot => "BitwiseNot"
  | .bitwiseShiftLeft => "BitwiseShiftLeft"
  | .bitwiseShiftRight => "BitwiseShiftRight"
  | .equals => "Equals"
  | .notEquals => "NotEquals"
  | .lessThan => "LessThan"
  | .greaterThan => "GreaterThan"
  | .lessThanOrEquals => "LessThanOrEquals"
  | .greaterThanOrEquals => "GreaterThanOrEquals"
  | .compare => "Compare"
  | .hash => "Hash"
  | .not => "Not"
  | .raise => "Raise"
  | .reraise => "Reraise"
  | .failwith => "Failwith"
  | .invalidArg => "InvalidArg"
  | .nullArg => "NullArg"
  | .ignore => "Ignore"
  | .identity => "Id"
  | .fst => "Fst"
  | .snd => "Snd"
  | .ref => "Ref"
  | .deref => "Deref"
  | .assign => "Assign"
  | .box => "Box"
  | .unbox => "Unbox"
  | .isNull => "IsNull"
  | .typeOf => "TypeOf"
  | .typeDefOf => "TypeDefOf"
  | .sizeOf => "SizeOf"
  | .nameOf => "NameOf"
  | .range => "Range"
  | .rangeStep => "RangeStep"
  | .lock => "Lock"
  | .usingScope => "Using"
  | .toInt32 => "ToInt32"
  | .toInt64 => "ToInt64"
  | .toDouble => "ToDouble"
  | .toChar => "ToChar"
  | .toString => "ToString"
  | .toByte => "ToByte"
  | .abs => "Abs"
  | .acos => "Acos"
  | .asin => "Asin"
  | .atan => "Atan"
  | .atan2 => "Atan2"
  | .ceiling => "Ceiling"
  | .cos => "Cos"
  | .cosh => "Cosh"
  | .exp => "Exp"
  | .floor => "Floor"
  | .log => "Log"
  | .log10 => "Log10"
  | .pow => "Pow"
  | .round => "Round"
  | .sign => "Sign"
  | .sin => "Sin"
  | .sinh => "Sinh"
  | .sqrt => "Sqrt"
  | .tan => "Tan"
  | .tanh => "Tanh"
  | .truncate => "Truncate"
  | .pipeRight => "PipeRight"
  | .pipeLeft => "PipeLeft"
  | .composeRight => "ComposeRight"
  | .checkedAddition => "CheckedAddition"
  | .checkedSubtraction => "CheckedSubtraction"
  | .checkedMultiply => "CheckedMultiply"
  | .checkedUnaryNegation => "CheckedUnaryNegation"
  | .checkedToInt32 => "CheckedToInt32"
  | .booleanAnd => "BooleanAnd"
  | .booleanOr => "BooleanOr"
  | .addressOf => "AddressOf"
  | .genericZero => "GenericZero"
  | .genericOne => "GenericOne"
  | .genericEquality => "GenericEquality"
  | .genericEqualityEr => "GenericEqualityEr"
  | .genericComparison => "GenericComparison"
  | .genericHash => "GenericHash"
  | .physicalEquality => "PhysicalEquality"
  | .physicalHash => "PhysicalHash"
  | .enumOfValue => "EnumOfValue"
  | .enumToValue => "EnumToValue"
  | .genericEqualityIntrinsic => "GenericEqualityIntrinsic"
  | .genericEqualityErIntrinsic => "GenericEqualityErIntrinsic"
  | .genericEqualityWithComparerIntrinsic => "GenericEqualityWithComparerIntrinsic"
  | .genericComparisonIntrinsic => "GenericComparisonIntrinsic"
  | .genericComparisonWithComparerIntrinsic => "GenericComparisonWithComparerIntrinsic"
  | .genericHashIntrinsic => "GenericHashIntrinsic"
  | .genericHashWithComparerIntrinsic => "GenericHashWithComparerIntrinsic"
  | .genericLessThanIntrinsic => "GenericLessThanIntrinsic"
  | .genericGreaterThanIntrinsic => "GenericGreaterThanIntrinsic"
  | .genericLessOrEqualIntrinsic => "GenericLessOrEqualIntrinsic"
  | .genericGreaterOrEqualIntrinsic => "GenericGreaterOrEqualIntrinsic"
  | .getArray => "GetArray"
  | .getArray2D => "GetArray2D"
  | .getArray3D => "GetArray3D"
  | .getArray4D => "GetArray4D"
  | .setArray => "SetArray"
  | .setArray2D => "SetArray2D"
  | .setArray3D => "SetArray3D"
  | .setArray4D => "SetArray4D"
  | .getString => "GetString"
  | .unboxGeneric => "UnboxGeneric"
  | .unboxFast => "UnboxFast"
  | .typeTestGeneric => "TypeTestGeneric"
  | .typeTestFast => "TypeTestFast"
  | .createInstance => "CreateInstance"
  | .dispose => "Dispose"
  | .makeDecimal => "MakeDecimal"
  | .additionDynamic => "AdditionDynamic"
  | .subtractionDynamic => "SubtractionDynamic"
  | .multiplyDynamic => "MultiplyDynamic"
  | .divisionDynamic => "DivisionDynamic"
  | .modulusDynamic => "ModulusDynamic"
  | .bitwiseAndDynamic => "BitwiseAndDynamic"
  | .bitwiseOrDynamic => "BitwiseOrDynamic"
  | .exclusiveOrDynamic => "ExclusiveOrDynamic"
  | .leftShiftDynamic => "LeftShiftDynamic"
  | .rightShiftDynamic => "RightShiftDynamic"
  | .checkedAdditionDynamic => "CheckedAdditionDynamic"
  | .checkedSubtractionDynamic => "CheckedSubtractionDynamic"
  | .checkedMultiplyDynamic => "CheckedMultiplyDynamic"
  | .unaryNegationDynamic => "UnaryNegationDynamic"
  | .checkedUnaryNegationDynamic => "CheckedUnaryNegationDynamic"
  | .unaryPlusDynamic => "UnaryPlusDynamic"
  | .logicalNotDynamic => "LogicalNotDynamic"
  | .explicitDynamic => "ExplicitDynamic"
  | .checkedExplicitDynamic => "CheckedExplicitDynamic"
  | .implicitDynamic => "ImplicitDynamic"
  | .equalityDynamic => "EqualityDynamic"
  | .inequalityDynamic => "InequalityDynamic"
  | .lessThanDynamic => "LessThanDynamic"
  | .greaterThanDynamic => "GreaterThanDynamic"
  | .lessThanOrEqualDynamic => "LessThanOrEqualDynamic"
  | .greaterThanOrEqualDynamic => "GreaterThanOrEqualDynamic"
  | .genericZeroDynamic => "GenericZeroDynamic"
  | .genericOneDynamic => "GenericOneDynamic"
  | .rangeInt32 => "RangeInt32"
  | .rangeInt64 => "RangeInt64"
  | .rangeUInt64 => "RangeUInt64"
  | .rangeChar => "RangeChar"
  | .rangeGeneric => "RangeGeneric"
  | .rangeStepGeneric => "RangeStepGeneric"
  | .getArraySlice => "GetArraySlice"
  | .enumerateWhile => "EnumerateWhile"
  | .enumerateThenFinally => "EnumerateThenFinally"
  | .enumerateUsing => "EnumerateUsing"
  | .enumerateTryWith => "EnumerateTryWith"
  | .enumerateFromFunctions => "EnumerateFromFunctions"
  | .seqCollect => "SeqCollect"
  | .seqDelay => "SeqDelay"
  | .seqAppend => "SeqAppend"
  | .seqSingleton => "SeqSingleton"
  | .seqEmpty => "SeqEmpty"
  | .seqMap => "SeqMap"
  | .seqToList => "SeqToList"
  | .seqToArray => "SeqToArray"
  | .sprintf => "Sprintf"
  | .printf => "Printf"
  | .printfn => "Printfn"
  | .failwithf => "Failwithf"
  | .createSequence => "CreateSequence"
  | .query => "Query"
  | .splice => "Splice"
  | .spliceUntyped => "SpliceUntyped"
  | .newFormat => "NewFormat"
  | .liftValue => "LiftValue"
  | .castQuotation => "CastQuotation"
  | .lazyForce => "LazyForce"
  | .lazyCreate => "LazyCreate"
  | .queryRun => "QueryRun"
  | .queryFor => "QueryFor"
  | .querySelect => "QuerySelect"
  | .queryYield => "QueryYield"
  | .queryZero => "QueryZero"
  | .arrayLength => "ArrayLength"
  | .arrayGet => "ArrayGet"
  | .arrayZeroCreate => "ArrayZeroCreate"

/-- The name under which the environment offers the intrinsic. -/
def accessor : IntrinsicId → String
  | .uncheckedAddition => "unchecked_addition"
  | .uncheckedSubtraction => "unchecked_subtraction"
  | .uncheckedMultiply => "unchecked_multiply"
  | .uncheckedDivision => "unchecked_division"
  | .uncheckedModulus => "unchecked_modulus"
  | .uncheckedUnaryNegation => "unchecked_unary_negation"
  | .bitwiseAnd => "bitwise_and"
  | .bitwiseOr => "bitwise_or"
  | .bitwiseXor => "bitwise_xor"
  | .bitwiseNot => "bitwise_not"
  | .bitwiseShiftLeft => "bitwise_shift_left"
  | .bitwiseShiftRight => "bitwise_shift_right"
  | .equals => "equals_operator"
  | .notEquals => "not_equals_operator"
  | .lessThan => "less_than_operator"
  | .greaterThan => "greater_than_operator"
  | .lessThanOrEquals => "less_than_or_equals_operator"
  | .greaterThanOrEquals => "greater_than_or_equals_operator"
  | .compare => "compare_operator"
  | .hash => "hash_operator"
  | .not => "not"
  | .raise => "raise"
  | .reraise => "reraise"
  | .failwith => "failwith"
  | .invalidArg => "invalid_arg"
  | .nullArg => "null_arg"
  | .ignore => "ignore"
  | .identity => "id"
  | .fst => "fst"
  | .snd => "snd"
  | .ref => "ref"
  | .deref => "deref"
  | .assign => "assign"
  | .box => "box"
  | .unbox => "unbox"
  | .isNull => "is_null"
  | .typeOf => "typeof"
  | .typeDefOf => "typedefof"
  | .sizeOf => "sizeof"
  | .nameOf => "nameof"
  | .range => "range_op"
  | .rangeStep => "range_step_op"
  | .lock => "lock"
  | .usingScope => "using"
  | .toInt32 => "int32_operator"
  | .toInt64 => "int64_operator"
  | .toDouble => "float_operator"
  | .toChar => "char_operator"
  | .toString => "string_operator"
  | .toByte => "byte_operator"
  | .abs => "abs"
  | .acos => "acos"
  | .asin => "asin"
  | .atan => "atan"
  | .atan2 => "atan2"
  | .ceiling => "ceil"
  | .cos => "cos"
  | .cosh => "cosh"
  | .exp => "exp"
  | .floor => "floor"
  | .log => "log"
  | .log10 => "log10"
  | .pow => "pow"
  | .round => "round"
  | .sign => "sign"
  | .sin => "sin"
  | .sinh => "sinh"
  | .sqrt => "sqrt"
  | .tan => "tan"
  | .tanh => "tanh"
  | .truncate => "truncate"
  | .pipeRight => "pipe_right"
  | .pipeLeft => "pipe_left"
  | .composeRight => "compose_right"
  | .checkedAddition => "checked_addition"
  | .checkedSubtraction => "checked_subtraction"
  | .checkedMultiply => "checked_multiply"
  | .checkedUnaryNegation => "checked_unary_negation"
  | .checkedToInt32 => "checked_int32_operator"
  | .booleanAnd => "and_operator"
  | .booleanOr => "or_operator"
  | .addressOf => "address_of"
  | .genericZero => "generic_zero"
  | .genericOne => "generic_one"
  | .genericEquality => "generic_equality"
  | .genericEqualityEr => "generic_equality_er"
  | .genericComparison => "generic_comparison"
  | .genericHash => "generic_hash"
  | .physicalEquality => "physical_equality"
  | .physicalHash => "physical_hash"
  | .enumOfValue => "enum_of_value"
  | .enumToValue => "enum_to_value"
  | .genericEqualityIntrinsic => "generic_equality_intrinsic"
  | .genericEqualityErIntrinsic => "generic_equality_er_intrinsic"
  | .genericEqualityWithComparerIntrinsic => "generic_equality_with_comparer_intrinsic"
  | .genericComparisonIntrinsic => "generic_comparison_intrinsic"
  | .genericComparisonWithComparerIntrinsic => "generic_comparison_with_comparer_intrinsic"
  | .genericHashIntrinsic => "generic_hash_intrinsic"
  | .genericHashWithComparerIntrinsic => "generic_hash_with_comparer_intrinsic"
  | .genericLessThanIntrinsic => "generic_less_than_intrinsic"
  | .genericGreaterThanIntrinsic => "generic_greater_than_intrinsic"
  | .genericLessOrEqualIntrinsic => "generic_less_or_equal_intrinsic"
  | .genericGreaterOrEqualIntrinsic => "generic_greater_or_equal_intrinsic"
  | .getArray => "array_get"
  | .getArray2D => "array2d_get"
  | .getArray3D => "array3d_get"
  | .getArray4D => "array4d_get"
  | .setArray => "array_set"
  | .setArray2D => "array2d_set"
  | .setArray3D => "array3d_set"
  | .setArray4D => "array4d_set"
  | .getString => "string_get"
  | .unboxGeneric => "unbox_generic"
  | .unboxFast => "unbox_fast"
  | .typeTestGeneric => "type_test_generic"
  | .typeTestFast => "type_test_fast"
  | .createInstance => "create_instance"
  | .dispose => "dispose"
  | .makeDecimal => "make_decimal"
  | .additionDynamic => "addition_dynamic"
  | .subtractionDynamic => "subtraction_dynamic"
  | .multiplyDynamic => "multiply_dynamic"
  | .divisionDynamic => "division_dynamic"
  | .modulusDynamic => "modulus_dynamic"
  | .bitwiseAndDynamic => "bitwise_and_dynamic"
  | .bitwiseOrDynamic => "bitwise_or_dynamic"
  | .exclusiveOrDynamic => "exclusive_or_dynamic"
  | .leftShiftDynamic => "left_shift_dynamic"
  | .rightShiftDynamic => "right_shift_dynamic"
  | .checkedAdditionDynamic => "checked_addition_dynamic"
  | .checkedSubtractionDynamic => "checked_subtraction_dynamic"
  | .checkedMultiplyDynamic => "checked_multiply_dynamic"
  | .unaryNegationDynamic => "unary_negation_dynamic"
  | .checkedUnaryNegationDynamic => "checked_unary_negation_dynamic"
  | .unaryPlusDynamic => "unary_plus_dynamic"
  | .logicalNotDynamic => "logical_not_dynamic"
  | .explicitDynamic => "explicit_dynamic"
  | .checkedExplicitDynamic => "checked_explicit_dynamic"
  | .implicitDynamic => "implicit_dynamic"
  | .equalityDynamic => "equality_dynamic"
  | .inequalityDynamic => "inequality_dynamic"
  | .lessThanDynamic => "less_than_dynamic"
  | .greaterThanDynamic => "greater_than_dynamic"
  | .lessThanOrEqualDynamic => "less_than_or_equal_dynamic"
  | .greaterThanOrEqualDynamic => "greater_than_or_equal_dynamic"
  | .genericZeroDynamic => "generic_zero_dynamic"
  | .genericOneDynamic => "generic_one_dynamic"
  | .rangeInt32 => "range_int32"
  | .rangeInt64 => "range_int64"
  | .rangeUInt64 => "range_uint64"
  | .rangeChar => "range_char"
  | .rangeGeneric => "range_generic"
  | .rangeStepGeneric => "range_step_generic"
  | .getArraySlice => "array_get_slice"
  | .enumerateWhile => "seq_while"
  | .enumerateThenFinally => "seq_finally"
  | .enumerateUsing => "seq_using"
  | .enumerateTryWith => "seq_trywith"
  | .enumerateFromFunctions => "seq_of_functions"
  | .seqCollect => "seq_collect"
  | .seqDelay => "seq_delay"
  | .seqAppend => "seq_append"
  | .seqSingleton => "seq_singleton"
  | .seqEmpty => "seq_empty"
  | .seqMap => "seq_map"
  | .seqToList => "seq_to_list"
  | .seqToArray => "seq_to_array"
  | .sprintf => "sprintf"
  | .printf => "printf"
  | .printfn => "printfn"
  | .failwithf => "failwithf"
  | .createSequence => "seq"
  | .query => "query"
  | .splice => "splice_expr"
  | .spliceUntyped => "splice_raw_expr"
  | .newFormat => "new_format"
  | .liftValue => "lift_value"
  | .castQuotation => "cast_quotation"
  | .lazyForce => "lazy_force"
  | .lazyCreate => "lazy_create"
  | .queryRun => "query_run"
  | .queryFor => "query_for"
  | .querySelect => "query_select"
  | .queryYield => "query_yield"
  | .queryZero => "query_zero"
  | .arrayLength => "array_length"
  | .arrayGet => "array_get_module"
  | .arrayZeroCreate => "array_zero_create"

end IntrinsicId

end TypeEnv
