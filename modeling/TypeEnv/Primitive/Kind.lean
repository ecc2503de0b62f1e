import TypeEnv.Enumerated

namespace TypeEnv

inductive PrimitiveKind where
  | int8
  | int16
  | int32
  | int64
  | uint8
  | uint16
  | uint32
  | uint64
  | nativeInt
  | unsignedNativeInt
  | float32
  | float
  | decimal
  | bool
  | char
  | string
  | obj
  | exn
  | unit
  | systemType
  deriving DecidableEq

namespace PrimitiveKind

def all : List PrimitiveKind :=
  [.int8, .int16, .int32, .int64, .uint8, .uint16, .uint32, .uint64, .nativeInt,
   .unsignedNativeInt, .float32, .float, .decimal, .bool, .char, .string, .obj, .exn, .unit,
   .systemType]

instance : Enumerated PrimitiveKind where
  all := all
  index kind := ⟨kind.ctorIdx, by cases kind <;> decide⟩
  get_index kind := by cases kind <;> rfl

def label : PrimitiveKind → String
  | .int8 => "Int8"
  | .int16 => "Int16"
  | .int32 => "Int32"
  | .int64 => "Int64"
  | .uint8 => "UInt8"
  | .uint16 => "UInt16"
  | .uint32 => "UInt32"
  | .uint64 => "UInt64"
  | .nativeInt => "NativeInt"
  | .unsignedNativeInt => "UNativeInt"
  | .float32 => "Float32"
  | .float => "Float"
  | .decimal => "Decimal"
  | .bool => "Bool"
  | .char => "Char"
  | .string => "String"
  | .obj => "Obj"
  | .exn => "Exn"
  | .unit => "Unit"
  | .systemType => "SystemType"

/-- The name in the standard library. The type of runtime types has none: it is the host type. -/
def coreName? : PrimitiveKind → Option String
  | .int8 => some "sbyte"
  | .int16 => some "int16"
  | .int32 => some "int"
  | .int64 => some "int64"
  | .uint8 => some "byte"
  | .uint16 => some "uint16"
  | .uint32 => some "uint32"
  | .uint64 => some "uint64"
  | .nativeInt => some "nativeint"
  | .unsignedNativeInt => some "unativeint"
  | .float32 => some "float32"
  | .float => some "float"
  | .decimal => some "decimal"
  | .bool => some "bool"
  | .char => some "char"
  | .string => some "string"
  | .obj => some "obj"
  | .exn => some "exn"
  | .unit => some "Unit"
  | .systemType => none

/-- The name in the `System` namespace of the host runtime. The unit type has none. -/
def hostName? : PrimitiveKind → Option String
  | .int8 => some "SByte"
  | .int16 => some "Int16"
  | .int32 => some "Int32"
  | .int64 => some "Int64"
  | .uint8 => some "Byte"
  | .uint16 => some "UInt16"
  | .uint32 => some "UInt32"
  | .uint64 => some "UInt64"
  | .nativeInt => some "IntPtr"
  | .unsignedNativeInt => some "UIntPtr"
  | .float32 => some "Single"
  | .float => some "Double"
  | .decimal => some "Decimal"
  | .bool => some "Boolean"
  | .char => some "Char"
  | .string => some "String"
  | .obj => some "Object"
  | .exn => some "Exception"
  | .unit => none
  | .systemType => some "Type"

def isNullableReference : PrimitiveKind → Bool
  | .string | .obj => true
  | _ => false

end PrimitiveKind

end TypeEnv
