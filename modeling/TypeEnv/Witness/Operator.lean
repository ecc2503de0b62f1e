import TypeEnv.Intrinsic.Id

/-!
Operator spellings, the trait members they call, and the intrinsics that stand for the members. A
trait member belongs to a family, which says how operand and result types become the type arguments
of an intrinsic.
-/

namespace TypeEnv

def operatorTraits : List (String × String) :=
  [("+", "op_Addition"), ("-", "op_Subtraction"), ("*", "op_Multiply"), ("/", "op_Division"),
   ("%", "op_Modulus"), ("&&&", "op_BitwiseAnd"), ("|||", "op_BitwiseOr"),
   ("^^^", "op_ExclusiveOr"), ("<<<", "op_LeftShift"), (">>>", "op_RightShift"),
   ("~~~", "op_LogicalNot"), ("~-", "op_UnaryNegation"), ("~+", "op_UnaryPlus"),
   ("=", "op_Equality"), ("<>", "op_Inequality"), ("<", "op_LessThan"), (">", "op_GreaterThan"),
   ("<=", "op_LessThanOrEqual"), (">=", "op_GreaterThanOrEqual"), ("**", "Pow")]

def operatorTrait? (spelling : String) : Option String := operatorTraits.lookup spelling

inductive WitnessFamily where
  /-- `lhs → rhs → result` at `[lhs, rhs, result]` -/
  | binary (id : IntrinsicId)
  /-- `lhs → rhs → bool` at `[lhs, rhs]` -/
  | relational (id : IntrinsicId)
  /-- `operand → result` at `[operand, result]` -/
  | unary (id : IntrinsicId)
  /-- a constant at `[result]` -/
  | constant (id : IntrinsicId)
  /-- `T → T` at `[T]` -/
  | mathSame (id : IntrinsicId)
  /-- `T → U` at `[T, U]` -/
  | mathMapped (id : IntrinsicId)
  | atan2
  | pow
  | sign
  | getItem
  | setItem
  deriving DecidableEq

namespace WitnessFamily

def ofTrait? : String → Option WitnessFamily
  | "op_Addition" => some (.binary .additionDynamic)
  | "op_Subtraction" => some (.binary .subtractionDynamic)
  | "op_Multiply" => some (.binary .multiplyDynamic)
  | "op_Division" => some (.binary .divisionDynamic)
  | "op_Modulus" => some (.binary .modulusDynamic)
  | "op_BitwiseAnd" => some (.binary .bitwiseAndDynamic)
  | "op_BitwiseOr" => some (.binary .bitwiseOrDynamic)
  | "op_ExclusiveOr" => some (.binary .exclusiveOrDynamic)
  | "op_LeftShift" => some (.binary .leftShiftDynamic)
  | "op_RightShift" => some (.binary .rightShiftDynamic)
  | "op_CheckedAddition" => some (.binary .checkedAdditionDynamic)
  | "op_CheckedSubtraction" => some (.binary .checkedSubtractionDynamic)
  | "op_CheckedMultiply" => some (.binary .checkedMultiplyDynamic)
  | "op_Equality" => some (.relational .equalityDynamic)
  | "op_Inequality" => some (.relational .inequalityDynamic)
  | "op_LessThan" => some (.relational .lessThanDynamic)
  | "op_GreaterThan" => some (.relational .greaterThanDynamic)
  | "op_LessThanOrEqual" => some (.relational .lessThanOrEqualDynamic)
  | "op_GreaterThanOrEqual" => some (.relational .greaterThanOrEqualDynamic)
  | "op_UnaryNegation" => some (.unary .unaryNegationDynamic)
  | "op_CheckedUnaryNegation" => some (.unary .checkedUnaryNegationDynamic)
  | "op_UnaryPlus" => some (.unary .unaryPlusDynamic)
  | "op_LogicalNot" => some (.unary .logicalNotDynamic)
  | "op_OnesComplement" => some (.unary .logicalNotDynamic)
  | "op_Explicit" => some (.unary .explicitDynamic)
  | "op_CheckedExplicit" => some (.unary .checkedExplicitDynamic)
  | "op_Implicit" => some (.unary .implicitDynamic)
  | "get_Zero" => some (.constant .genericZeroDynamic)
  | "get_One" => some (.constant .genericOneDynamic)
  | "Abs" => some (.mathSame .abs)
  | "Acos" => some (.mathSame .acos)
  | "Asin" => some (.mathSame .asin)
  | "Atan" => some (.mathSame .atan)
  | "Ceiling" => some (.mathSame .ceiling)
  | "Cos" => some (.mathSame .cos)
  | "Cosh" => some (.mathSame .cosh)
  | "Exp" => some (.mathSame .exp)
  | "Floor" => some (.mathSame .floor)
  | "Log" => some (.mathSame .log)
  | "Log10" => some (.mathSame .log10)
  | "Round" => some (.mathSame .round)
  | "Sin" => some (.mathSame .sin)
  | "Sinh" => some (.mathSame .sinh)
  | "Tan" => some (.mathSame .tan)
  | "Tanh" => some (.mathSame .tanh)
  | "Truncate" => some (.mathSame .truncate)
  | "Sqrt" => some (.mathMapped .sqrt)
  | "Atan2" => some .atan2
  | "Pow" => some .pow
  | "Sign" => some .sign
  | "get_Item" => some .getItem
  | "set_Item" => some .setItem
  | _ => none

def getArray? : (rank : Nat) → Option IntrinsicId
  | 1 => some .getArray
  | 2 => some .getArray2D
  | 3 => some .getArray3D
  | 4 => some .getArray4D
  | _ => none

def setArray? : (rank : Nat) → Option IntrinsicId
  | 1 => some .setArray
  | 2 => some .setArray2D
  | 3 => some .setArray3D
  | 4 => some .setArray4D
  | _ => none

end WitnessFamily

end TypeEnv
