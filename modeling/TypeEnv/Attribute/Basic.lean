import TypeEnv.Tycon.Ref

namespace TypeEnv

inductive MetadataScope where
  /-- the unit under compilation -/
  | compiled
  /-- a library, by name -/
  | unit (name : Name)
  /-- no unit provides the type -/
  | unresolved
  deriving DecidableEq

structure MetadataRef where
  scope : MetadataScope
  path : NamespacePath
  name : Name
  deriving DecidableEq

structure AttributeInfo where
  metadata : MetadataRef
  tycon : TyconRef
  deriving DecidableEq

namespace AttributeInfo

def scopeOf (unit : UnitRef) : MetadataScope :=
  match unit.unit? with
  | some unit => if unit.isCompiled then .compiled else .unit unit.name
  | none => .unresolved

def inUnit (unit : UnitRef) (path : NamespacePath) (name : Name) : AttributeInfo where
  metadata := ⟨scopeOf unit, path, name⟩
  tycon := .named unit path name

def embedded (definition : TypeDef) (path : NamespacePath) (name : Name) : AttributeInfo where
  metadata := ⟨.compiled, path, name⟩
  tycon := .direct definition

def isAvailable (info : AttributeInfo) (store : UnitStore) : Bool := info.tycon.canDeref store

end AttributeInfo

inductive AttributeArg where
  | int32 (value : Int32)
  | bool (value : Bool)
  | string (value : String)
  deriving DecidableEq

structure CustomAttribute where
  type : MetadataRef
  args : List AttributeArg
  deriving DecidableEq

def AttributeInfo.custom (info : AttributeInfo) (args : List AttributeArg) : CustomAttribute :=
  ⟨info.metadata, args⟩

end TypeEnv
