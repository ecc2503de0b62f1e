import TypeEnv.Intrinsic.Instantiate
import TypeEnv.Intrinsic.Rows

namespace TypeEnv

structure EnclosingEntity where
  path : NamespacePath
  name : Name
  deriving DecidableEq

/-- What a known intrinsic is found by: simple names and the number of arguments. -/
structure LinkageKey where
  entity : Name
  memberParent : Option Name
  compiledName : Name
  argCount : UInt32
  deriving DecidableEq

structure Intrinsic where
  id : IntrinsicId
  entity : EnclosingEntity
  logicalName : Name
  compiledName : Name
  memberParent : Option Name
  typars : List TyParam
  argGroups : List (List Ty)
  ret : Ty
  /-- the full curried type -/
  ty : Ty
  key : LinkageKey
  known : Bool
  deriving DecidableEq

namespace Intrinsic

def isMember (value : Intrinsic) : Bool := value.memberParent.isSome

def typarTys (value : Intrinsic) (node : NodeId) : List Ty := value.typars.map (.var node)

def Alike (first second : Intrinsic) : Prop :=
  first.id = second.id ∧ first.entity = second.entity ∧ first.logicalName = second.logicalName ∧
    first.compiledName = second.compiledName ∧ first.memberParent = second.memberParent ∧
    first.typars = second.typars ∧
    first.argGroups.map Ty.shapes = second.argGroups.map Ty.shapes ∧ first.ret.Alike second.ret ∧
    first.ty.Alike second.ty ∧ first.key = second.key ∧ first.known = second.known

instance (first second : Intrinsic) : Decidable (first.Alike second) :=
  inferInstanceAs (Decidable (_ ∧ _))

end Intrinsic

structure IntrinsicNames where
  entity : EnclosingEntity
  logicalName : Name
  compiledName : Name
  memberParent : Option Name
  typars : List TyParam
  deriving DecidableEq

namespace IntrinsicSpec

def internNames (spec : IntrinsicSpec) : Interning IntrinsicNames := do
  let path ← Interner.internPath spec.declaredIn.space
  let name ← Interner.intern spec.declaredIn.compiledName
  let logicalName ← Interner.intern spec.logicalName
  let compiledName ← Interner.intern spec.compiledName
  let memberParent ← spec.memberParent.mapM Interner.intern
  let typars ← spec.typars.mapM Interner.intern
  return {
    entity := ⟨path, name⟩, logicalName, compiledName, memberParent
    typars := typars.mapIdx fun index name => ⟨name, index⟩ }

def instantiate (spec : IntrinsicSpec) (names : IntrinsicNames) (tycons : WellKnownTycons)
    (prims : PrimitiveTypes) (node : NodeId) : Except Breach Intrinsic := do
  let context : TemplateContext := ⟨tycons, prims, names.typars.map (.var node)⟩
  let argGroups ← context.instantiateGroups node spec.signature.args
  let ret ← context.instantiate node spec.signature.ret
  return {
    id := spec.id, entity := names.entity, logicalName := names.logicalName
    compiledName := names.compiledName, memberParent := names.memberParent
    typars := names.typars, argGroups, ret
    ty := context.curriedTy node argGroups ret
    key :=
      ⟨names.entity.name, names.memberParent, names.compiledName,
        UInt32.ofNat spec.signature.argCount⟩
    known := spec.known }

end IntrinsicSpec

/-- The known intrinsics, no two of them under one key. -/
structure KnownTable where
  entries : List Intrinsic := []

namespace KnownTable

def find? (table : KnownTable) (key : LinkageKey) : Option Intrinsic :=
  table.entries.find? (·.key = key)

def size (table : KnownTable) : Nat := table.entries.length

def isEmpty (table : KnownTable) : Bool := table.entries.isEmpty

/-- A second intrinsic under one key breaks the contract. -/
def insert (table : KnownTable) (value : Intrinsic) : Except Breach KnownTable :=
  match table.find? value.key with
  | some registered => .error (.duplicateKnown registered.id value.id)
  | none => .ok ⟨table.entries ++ [value]⟩

end KnownTable

end TypeEnv
