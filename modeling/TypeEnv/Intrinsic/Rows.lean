import TypeEnv.Intrinsic.Spec

namespace TypeEnv

namespace IntrinsicSpec

def operatorsRows : List IntrinsicSpec :=
  [operator .uncheckedAddition "op_Addition" "op_Addition" ["T1", "T2", "U"] .binary,
   operator .uncheckedSubtraction "op_Subtraction" "op_Subtraction" ["T1", "T2", "U"] .binary,
   operator .uncheckedMultiply "op_Multiply" "op_Multiply" ["T1", "T2", "U"] .binary,
   operator .uncheckedDivision "op_Division" "op_Division" ["T1", "T2", "U"] .binary,
   operator .uncheckedModulus "op_Modulus" "op_Modulus" ["T1", "T2", "U"] .binary,
   operator .uncheckedUnaryNegation "op_UnaryNegation" "op_UnaryNegation" ["T", "U"] .unary,
   operator .bitwiseAnd "op_BitwiseAnd" "op_BitwiseAnd" ["T"] .homogeneousBinary,
   operator .bitwiseOr "op_BitwiseOr" "op_BitwiseOr" ["T"] .homogeneousBinary,
   operator .bitwiseXor "op_ExclusiveOr" "op_ExclusiveOr" ["T"] .homogeneousBinary,
   operator .bitwiseNot "op_LogicalNot" "op_LogicalNot" ["T"] .endo,
   operator .bitwiseShiftLeft "op_LeftShift" "op_LeftShift" ["T"] .shift,
   operator .bitwiseShiftRight "op_RightShift" "op_RightShift" ["T"] .shift,
   operator .equals "op_Equality" "op_Equality" ["T"] .predicate2,
   operator .notEquals "op_Inequality" "op_Inequality" ["T"] .predicate2,
   operator .lessThan "op_LessThan" "op_LessThan" ["T"] .predicate2,
   operator .greaterThan "op_GreaterThan" "op_GreaterThan" ["T"] .predicate2,
   operator .lessThanOrEquals "op_LessThanOrEqual" "op_LessThanOrEqual" ["T"] .predicate2,
   operator .greaterThanOrEquals "op_GreaterThanOrEqual" "op_GreaterThanOrEqual" ["T"]
       .predicate2,
   operator .compare "compare" "Compare" ["T"] .order,
   operator .hash "hash" "Hash" ["T"] .hash,
   operator .not "not" "Not" [] (.curried [.bool] .bool),
   operator .raise "raise" "Raise" ["T"] (.curried [.exn] .t),
   operator .reraise "reraise" "Reraise" ["T"] .nullary,
   operator .failwith "failwith" "FailWith" ["T"] .fail,
   operator .invalidArg "invalidArg" "InvalidArg" ["T"] (.curried [.string, .string] .t),
   operator .nullArg "nullArg" "NullArg" ["T"] .fail,
   operator .ignore "ignore" "Ignore" ["T"] (.curried [.t] .unit),
   operator .identity "id" "Identity" ["T"] .endo,
   operator .fst "fst" "Fst" ["T", "U"] ⟨[[.t, .u]], .t⟩,
   operator .snd "snd" "Snd" ["T", "U"] ⟨[[.t, .u]], .u⟩,
   operator .ref "ref" "Ref" ["T"] (.curried [.t] (.refCell .t)),
   operator .deref "op_Dereference" "op_Dereference" ["T"] (.curried [.refCell .t] .t),
   operator .assign "op_ColonEquals" "op_ColonEquals" ["T"] (.curried [.refCell .t, .t] .unit),
   operator .box "box" "Box" ["T"] (.curried [.t] .obj),
   operator .unbox "unbox" "Unbox" ["T"] (.curried [.obj] .t),
   operator .isNull "isNull" "IsNull" ["T"] (.curried [.t] .bool),
   operator .typeOf "typeof" "TypeOf" ["T"] (.value .systemType),
   operator .typeDefOf "typedefof" "TypeDefOf" ["T"] (.value .systemType),
   operator .sizeOf "sizeof" "SizeOf" ["T"] (.value .int),
   operator .nameOf "nameof" "NameOf" ["T"] (.curried [.t] .string),
   operator .range "op_Range" "op_Range" ["T"] (.curried [.t, .t] (.seq .t)),
   operator .rangeStep "op_RangeStep" "op_RangeStep" ["T", "U"] (.curried [.t, .u, .t] (.seq .t)),
   operator .lock "lock" "Lock" ["T", "U"] (.curried [.t, .fn .unit .u] .u),
   operator .usingScope "using" "Using" ["T", "U"] (.curried [.t, .fn .t .u] .u),
   conversion .toInt32 "int" "ToInt32" .int,
   conversion .toInt64 "int64" "ToInt64" .int64,
   conversion .toDouble "float" "ToDouble" .float,
   conversion .toChar "char" "ToChar" .char,
   conversion .toString "string" "ToString" .string,
   conversion .toByte "byte" "ToByte" .byte,
   math .abs "abs" "Abs",
   math .acos "acos" "Acos",
   math .asin "asin" "Asin",
   math .atan "atan" "Atan",
   operator .atan2 "atan2" "Atan2" ["T", "U"] (.curried [.t, .t] .u),
   math .ceiling "ceil" "Ceiling",
   math .cos "cos" "Cos",
   math .cosh "cosh" "Cosh",
   math .exp "exp" "Exp",
   math .floor "floor" "Floor",
   math .log "log" "Log",
   math .log10 "log10" "Log10",
   operator .pow "op_Exponentiation" "op_Exponentiation" ["T", "U"] (.curried [.t, .u] .t),
   math .round "round" "Round",
   operator .sign "sign" "Sign" ["T"] .hash,
   math .sin "sin" "Sin",
   math .sinh "sinh" "Sinh",
   operator .sqrt "sqrt" "Sqrt" ["T", "U"] .unary,
   math .tan "tan" "Tan",
   math .tanh "tanh" "Tanh",
   math .truncate "truncate" "Truncate",
   operator .pipeRight "op_PipeRight" "op_PipeRight" ["T", "U"] (.curried [.t, .fn .t .u] .u),
   operator .pipeLeft "op_PipeLeft" "op_PipeLeft" ["T", "U"] (.curried [.fn .t .u, .t] .u),
   operator .composeRight "op_ComposeRight" "op_ComposeRight" ["T", "U", "V"]
       (.curried [.fn .t .u, .fn .u .v] (.fn .t .v))]

def primitivesRows : List IntrinsicSpec :=
  [declared .checkedAddition .checked "op_Addition" "op_Addition" ["T1", "T2", "U"] .binary,
   declared .checkedSubtraction .checked "op_Subtraction" "op_Subtraction" ["T1", "T2", "U"]
       .binary,
   declared .checkedMultiply .checked "op_Multiply" "op_Multiply" ["T1", "T2", "U"] .binary,
   declared .checkedUnaryNegation .checked "op_UnaryNegation" "op_UnaryNegation" ["T", "U"]
       .unary,
   declared .checkedToInt32 .checked "int" "ToInt32" ["T"] (.curried [.t] .int),
   declared .booleanAnd .intrinsicOperators "op_BooleanAnd" "op_BooleanAnd" []
       (.curried [.bool, .bool] .bool),
   declared .booleanOr .intrinsicOperators "op_BooleanOr" "op_BooleanOr" []
       (.curried [.bool, .bool] .bool),
   declared .addressOf .intrinsicOperators "op_AddressOf" "op_AddressOf" ["T"]
       (.curried [.t] (.app .byRef [.t])),
   declared .genericZero .languagePrimitives "GenericZero" "GenericZero" ["T"] (.value .t),
   declared .genericOne .languagePrimitives "GenericOne" "GenericOne" ["T"] (.value .t),
   declared .genericEquality .languagePrimitives "GenericEquality" "GenericEquality" ["T"]
       .predicate2,
   declared .genericEqualityEr .languagePrimitives "GenericEqualityER" "GenericEqualityER"
       ["T"] .predicate2,
   declared .genericComparison .languagePrimitives "GenericComparison" "GenericComparison"
       ["T"] .order,
   declared .genericHash .languagePrimitives "GenericHash" "GenericHash" ["T"] .hash,
   declared .physicalEquality .languagePrimitives "PhysicalEquality" "PhysicalEquality" ["T"]
       .predicate2,
   declared .physicalHash .languagePrimitives "PhysicalHash" "PhysicalHash" ["T"] .hash,
   declared .enumOfValue .languagePrimitives "EnumOfValue" "EnumOfValue" ["T", "U"] .unary,
   declared .enumToValue .languagePrimitives "EnumToValue" "EnumToValue" ["T", "U"] .unary,
   hashCompare .genericEqualityIntrinsic "GenericEqualityIntrinsic" ["T"] .predicate2,
   hashCompare .genericEqualityErIntrinsic "GenericEqualityERIntrinsic" ["T"] .predicate2,
   hashCompare .genericEqualityWithComparerIntrinsic "GenericEqualityWithComparerIntrinsic"
       ["T"] (.curried [.equalityComparer, .t, .t] .bool),
   hashCompare .genericComparisonIntrinsic "GenericComparisonIntrinsic" ["T"] .order,
   hashCompare .genericComparisonWithComparerIntrinsic "GenericComparisonWithComparerIntrinsic"
       ["T"] (.curried [.comparer, .t, .t] .int),
   hashCompare .genericHashIntrinsic "GenericHashIntrinsic" ["T"] .hash,
   hashCompare .genericHashWithComparerIntrinsic "GenericHashWithComparerIntrinsic" ["T"]
       (.curried [.equalityComparer, .t] .int),
   hashCompare .genericLessThanIntrinsic "GenericLessThanIntrinsic" ["T"] .predicate2,
   hashCompare .genericGreaterThanIntrinsic "GenericGreaterThanIntrinsic" ["T"] .predicate2,
   hashCompare .genericLessOrEqualIntrinsic "GenericLessOrEqualIntrinsic" ["T"] .predicate2,
   hashCompare .genericGreaterOrEqualIntrinsic "GenericGreaterOrEqualIntrinsic" ["T"] .predicate2]

def functionsRows : List IntrinsicSpec :=
  [intrinsicFunction .getArray "GetArray" ["T"] (.curried [.vector .t, .int] .t),
   intrinsicFunction .getArray2D "GetArray2D" ["T"] (.curried [.array 2 .t, .int, .int] .t),
   intrinsicFunction .getArray3D "GetArray3D" ["T"] (.curried [.array 3 .t, .int, .int, .int] .t),
   intrinsicFunction .getArray4D "GetArray4D" ["T"]
       (.curried [.array 4 .t, .int, .int, .int, .int] .t),
   intrinsicFunction .setArray "SetArray" ["T"] (.curried [.vector .t, .int, .t] .unit),
   intrinsicFunction .setArray2D "SetArray2D" ["T"]
       (.curried [.array 2 .t, .int, .int, .t] .unit),
   intrinsicFunction .setArray3D "SetArray3D" ["T"]
       (.curried [.array 3 .t, .int, .int, .int, .t] .unit),
   intrinsicFunction .setArray4D "SetArray4D" ["T"]
       (.curried [.array 4 .t, .int, .int, .int, .int, .t] .unit),
   intrinsicFunction .getString "GetString" [] (.curried [.string, .int] .char),
   intrinsicFunction .unboxGeneric "UnboxGeneric" ["T"] (.curried [.obj] .t),
   intrinsicFunction .unboxFast "UnboxFast" ["T"] (.curried [.obj] .t),
   intrinsicFunction .typeTestGeneric "TypeTestGeneric" ["T"] (.curried [.obj] .bool),
   intrinsicFunction .typeTestFast "TypeTestFast" ["T"] (.curried [.obj] .bool),
   intrinsicFunction .createInstance "CreateInstance" ["T"] .nullary,
   intrinsicFunction .dispose "Dispose" ["T"] (.curried [.t] .unit),
   intrinsicFunction .makeDecimal "MakeDecimal" []
       (.curried [.int, .int, .int, .bool, .byte] .decimal)]

/-- Operators that are dispatched at run time. They serve as witnesses and are made on demand. -/
def dynamicRows : List IntrinsicSpec :=
  [binaryDynamic .additionDynamic "AdditionDynamic",
   binaryDynamic .subtractionDynamic "SubtractionDynamic",
   binaryDynamic .multiplyDynamic "MultiplyDynamic",
   binaryDynamic .divisionDynamic "DivisionDynamic",
   binaryDynamic .modulusDynamic "ModulusDynamic",
   binaryDynamic .bitwiseAndDynamic "BitwiseAndDynamic",
   binaryDynamic .bitwiseOrDynamic "BitwiseOrDynamic",
   binaryDynamic .exclusiveOrDynamic "ExclusiveOrDynamic",
   binaryDynamic .leftShiftDynamic "LeftShiftDynamic",
   binaryDynamic .rightShiftDynamic "RightShiftDynamic",
   binaryDynamic .checkedAdditionDynamic "CheckedAdditionDynamic",
   binaryDynamic .checkedSubtractionDynamic "CheckedSubtractionDynamic",
   binaryDynamic .checkedMultiplyDynamic "CheckedMultiplyDynamic",
   unaryDynamic .unaryNegationDynamic "UnaryNegationDynamic",
   unaryDynamic .checkedUnaryNegationDynamic "CheckedUnaryNegationDynamic",
   unaryDynamic .unaryPlusDynamic "UnaryPlusDynamic",
   unaryDynamic .logicalNotDynamic "LogicalNotDynamic",
   unaryDynamic .explicitDynamic "ExplicitDynamic",
   unaryDynamic .checkedExplicitDynamic "CheckedExplicitDynamic",
   unaryDynamic .implicitDynamic "ImplicitDynamic",
   relationalDynamic .equalityDynamic "EqualityDynamic",
   relationalDynamic .inequalityDynamic "InequalityDynamic",
   relationalDynamic .lessThanDynamic "LessThanDynamic",
   relationalDynamic .greaterThanDynamic "GreaterThanDynamic",
   relationalDynamic .lessThanOrEqualDynamic "LessThanOrEqualDynamic",
   relationalDynamic .greaterThanOrEqualDynamic "GreaterThanOrEqualDynamic",
   (declared .genericZeroDynamic .languagePrimitives "GenericZeroDynamic" "GenericZeroDynamic"
        ["T"] .nullary).onDemand,
   (declared .genericOneDynamic .languagePrimitives "GenericOneDynamic" "GenericOneDynamic"
        ["T"] .nullary).onDemand]

/-- Ranges, slices, and the functions that sequence expressions are compiled to. -/
def sequencesRows : List IntrinsicSpec :=
  [declared .rangeInt32 .operatorIntrinsics "RangeInt32" "RangeInt32" []
       (.curried [.int, .int, .int] (.seq .int)),
   declared .rangeInt64 .operatorIntrinsics "RangeInt64" "RangeInt64" []
       (.curried [.int64, .int64, .int64] (.seq .int64)),
   declared .rangeUInt64 .operatorIntrinsics "RangeUInt64" "RangeUInt64" []
       (.curried [.uint64, .uint64, .uint64] (.seq .uint64)),
   declared .rangeChar .operatorIntrinsics "RangeChar" "RangeChar" []
       (.curried [.char, .char] (.seq .char)),
   declared .rangeGeneric .operatorIntrinsics "RangeGeneric" "RangeGeneric" ["T"]
       (.curried [.t, .t] (.seq .t)),
   declared .rangeStepGeneric .operatorIntrinsics "RangeStepGeneric" "RangeStepGeneric"
       ["T", "U"] (.curried [.t, .u, .t] (.seq .t)),
   declared .getArraySlice .operatorIntrinsics "GetArraySlice" "GetArraySlice" ["T"]
       (.curried [.vector .t, .app .option [.int], .app .option [.int]] (.vector .t)),
   declared .enumerateWhile .runtimeHelpers "EnumerateWhile" "EnumerateWhile" ["T"]
       (.curried [.fn .unit .bool, .seq .t] (.seq .t)),
   declared .enumerateThenFinally .runtimeHelpers "EnumerateThenFinally" "EnumerateThenFinally"
       ["T"] (.curried [.seq .t, .fn .unit .unit] (.seq .t)),
   declared .enumerateUsing .runtimeHelpers "EnumerateUsing" "EnumerateUsing" ["T", "U", "V"]
       (.curried [.t, .fn .t .u] (.seq .v)),
   declared .enumerateTryWith .runtimeHelpers "EnumerateTryWith" "EnumerateTryWith" ["T"]
       (.curried [.seq .t, .fn .exn .int, .fn .exn (.seq .t)] (.seq .t)),
   declared .enumerateFromFunctions .runtimeHelpers "EnumerateFromFunctions"
       "EnumerateFromFunctions" ["T", "U"]
       (.curried [.fn .unit .t, .fn .t .bool, .fn .t .u] (.seq .u)),
   declared .seqCollect .seqModule "collect" "Collect" ["T", "U", "V"]
       (.curried [.fn .t .u, .seq .t] (.seq .v)),
   declared .seqDelay .seqModule "delay" "Delay" ["T"] (.curried [.fn .unit (.seq .t)] (.seq .t)),
   declared .seqAppend .seqModule "append" "Append" ["T"] (.curried [.seq .t, .seq .t] (.seq .t)),
   declared .seqSingleton .seqModule "singleton" "Singleton" ["T"] (.curried [.t] (.seq .t)),
   declared .seqEmpty .seqModule "empty" "Empty" ["T"] (.value (.seq .t)),
   declared .seqMap .seqModule "map" "Map" ["T", "U"] (.curried [.fn .t .u, .seq .t] (.seq .u)),
   declared .seqToList .seqModule "toList" "ToList" ["T"] (.curried [.seq .t] (.app .list [.t])),
   declared .seqToArray .seqModule "toArray" "ToArray" ["T"] (.curried [.seq .t] (.vector .t))]

def topLevelRows : List IntrinsicSpec :=
  [declared .sprintf .extraTopLevelOperators "sprintf" "PrintFormatToStringThen" ["T"]
       (.curried [.app .format [.t, .unit, .string, .string, .t]] .t),
   declared .printf .extraTopLevelOperators "printf" "PrintFormat" ["T"]
       (.curried [.app .format [.t, .obj, .unit, .unit, .t]] .t),
   declared .printfn .extraTopLevelOperators "printfn" "PrintFormatLine" ["T"]
       (.curried [.app .format [.t, .obj, .unit, .unit, .t]] .t),
   declared .failwithf .extraTopLevelOperators "failwithf" "PrintFormatToStringThenFail"
       ["T", "U"] (.curried [.app .format [.t, .unit, .string, .u, .t]] .t),
   declared .createSequence .extraTopLevelOperators "seq" "CreateSequence" ["T"]
       (.curried [.seq .t] (.seq .t)),
   declared .query .extraTopLevelOperators "query" "query" [] (.value .queryBuilder),
   declared .splice .extraTopLevelOperators "op_Splice" "op_Splice" ["T"]
       (.curried [.expr .t] .t),
   declared .spliceUntyped .extraTopLevelOperators "op_SpliceUntyped" "op_SpliceUntyped" ["T"]
       (.curried [.rawExpr] .t)]

def membersRows : List IntrinsicSpec :=
  [member "PrintfFormat`5" .newFormat .printfModule ".ctor" ".ctor"
       ["Printer", "State", "Residue", "Result", "Tuple"]
       (.curried [.string] (.app .format [.t, .u, .v, .w, .x])),
   member "Expr" .liftValue .quotations "Value" "Value" ["T"] (.curried [.t] .rawExpr),
   member "Expr" .castQuotation .quotations "Cast" "Cast" ["T"] (.curried [.rawExpr] (.expr .t)),
   member "Lazy`1" .lazyForce .lazyExtensions "Force" "Force" ["T"] (.curried [.lazy .t] .t),
   member "Lazy`1" .lazyCreate .lazyExtensions "Create" "Create" ["T"]
       (.curried [.fn .unit .t] (.lazy .t)),
   member "QueryBuilder" .queryRun .queryRunExtensions "Run" "Run" ["T"]
       (.curried [.queryBuilder, .expr .t] .t),
   member "QueryBuilder" .queryFor .queryRunExtensions "For" "For" ["T", "U", "V"]
       (.curried [.queryBuilder, .querySource .t .u, .fn .t (.querySource .v .u)]
         (.querySource .v .u)),
   member "QueryBuilder" .querySelect .queryRunExtensions "Select" "Select" ["T", "U", "V"]
       (.curried [.queryBuilder, .querySource .t .u, .fn .t .v] (.querySource .v .u)),
   member "QueryBuilder" .queryYield .queryRunExtensions "Yield" "Yield" ["T", "U"]
       (.curried [.queryBuilder, .t] (.querySource .t .u)),
   member "QueryBuilder" .queryZero .queryRunExtensions "Zero" "Zero" ["T", "U"]
       (.curried [.queryBuilder] (.querySource .t .u)),
   declared .arrayLength .arrayModule "length" "Length" ["T"] (.curried [.vector .t] .int),
   declared .arrayGet .arrayModule "get" "Get" ["T"] (.curried [.vector .t, .int] .t),
   declared .arrayZeroCreate .arrayModule "zeroCreate" "ZeroCreate" ["T"]
       (.curried [.int] (.vector .t))]

def rows : List IntrinsicSpec :=
  operatorsRows ++ primitivesRows ++ functionsRows ++ dynamicRows ++ sequencesRows ++
    topLevelRows ++ membersRows

set_option maxRecDepth 2000 in
theorem map_id_rows : rows.map IntrinsicSpec.id = IntrinsicId.all := rfl

theorem length_rows : rows.length = IntrinsicId.all.length := by
  rw [← map_id_rows, List.length_map]

def table : Table IntrinsicId IntrinsicSpec where
  entries := rows
  length_entries := length_rows

end IntrinsicSpec

def IntrinsicId.spec (id : IntrinsicId) : IntrinsicSpec := IntrinsicSpec.table.get id

theorem IntrinsicId.id_spec (id : IntrinsicId) : id.spec.id = id := by
  have place : id.ctorIdx < (IntrinsicSpec.rows.map IntrinsicSpec.id).length := by
    rw [IntrinsicSpec.map_id_rows, IntrinsicId.length_all]
    exact id.ctorIdx_lt
  have listed : (IntrinsicSpec.rows.map IntrinsicSpec.id).get ⟨id.ctorIdx, place⟩ = id := by
    simp only [IntrinsicSpec.map_id_rows]
    exact id.get_ctorIdx
  rw [List.get_eq_getElem, List.getElem_map] at listed
  exact listed

end TypeEnv
