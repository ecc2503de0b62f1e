import TypeEnv.Attribute.WellKnown
import TypeEnv.Primitive.Kind
import TypeEnv.Tycon.Named

namespace TypeEnv

structure TypeDeclaration where
  space : String := ""
  name : String
  kind : TypeKind := .classType
  arity : Nat := 0
  access : Access := .exported
  flags : TypeFlags := {}
  deriving DecidableEq

namespace TypeDeclaration

def fullName (declaration : TypeDeclaration) : String :=
  if declaration.space.isEmpty then declaration.name
  else declaration.space ++ "." ++ declaration.name

def toSpec (declaration : TypeDeclaration) : Interning TypeSpec := do
  let path ← Interner.internPath declaration.space
  let name ← Interner.intern declaration.name
  return {
    path, name, kind := declaration.kind, arity := declaration.arity
    access := declaration.access, flags := declaration.flags }

def ofAttribute (full : String) : TypeDeclaration :=
  let (space, name) := Dotted.splitLast full
  { space, name, kind := .attribute }

def ofNamed (origin : Origin) : List TypeDeclaration :=
  (NamedTycon.all.filter (·.location.origin = origin)).map fun tycon =>
    { space := tycon.location.space, name := tycon.location.name }

def hostRuntime : List TypeDeclaration :=
  let primitives := (PrimitiveKind.all.filterMap PrimitiveKind.hostName?).map fun name =>
    { space := systemNamespace, name, kind := .structType : TypeDeclaration }
  let tuples (family : String) (kind : TypeKind) :=
    (List.range maxTuple).map fun place =>
      { space := systemNamespace, name := tupleTyconName family (place + 1), kind : TypeDeclaration }
  primitives ++ tuples "Tuple" .classType ++ tuples "ValueTuple" .structType ++ ofNamed .host ++
    RequiredAttribute.all.map fun attr => ofAttribute attr.fullName

/-- The attributes that only some host runtimes declare. -/
def optionalAttributes : List TypeDeclaration :=
  OptionalAttribute.all.map fun attr => ofAttribute attr.fullName

def standardLibrary : List TypeDeclaration :=
  let primitives := (PrimitiveKind.all.filterMap PrimitiveKind.coreName?).map fun name =>
    { space := coreNamespace, name, kind := .abbreviation : TypeDeclaration }
  let arrays := (List.range maxArrayRank).map fun place =>
    { space := coreNamespace, name := arrayTyconName (place + 1) : TypeDeclaration }
  primitives ++ ofNamed .core ++ arrays

end TypeDeclaration

def UnitStore.declare (store : UnitStore) (unit : UnitId) (declaration : TypeDeclaration) :
    Interning (TypeDef × UnitStore) := do
  return store.define unit (← declaration.toSpec)

def UnitStore.declareAll (store : UnitStore) (unit : UnitId) :
    List TypeDeclaration → Interning UnitStore
  | [] => pure store
  | declaration :: rest => do
    let (_, store) ← store.declare unit declaration
    store.declareAll unit rest

end TypeEnv
