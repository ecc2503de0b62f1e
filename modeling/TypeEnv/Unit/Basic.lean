import TypeEnv.Dictionary
import TypeEnv.Failure
import TypeEnv.Namespace

/-!
Compilation units and the types they define. A unit keeps its definitions by namespace, and in a
namespace by simple name; it defines at most one type under a path and a name, and the first
definition stays. The definitions of all units take their stamps from one counter.
-/

namespace TypeEnv

structure UnitId where
  index : Nat
  deriving DecidableEq

/-- The identity of a type definition; a later definition has a larger stamp. -/
structure Stamp where
  order : Nat
  deriving DecidableEq

inductive UnitKind where
  /-- the unit under compilation -/
  | compiled
  /-- a library it refers to -/
  | referenced
  deriving DecidableEq

def UnitKind.label : UnitKind → String
  | .compiled => "Local"
  | .referenced => "External"

structure CompilationUnit where
  id : UnitId
  name : Name
  kind : UnitKind
  deriving DecidableEq

def CompilationUnit.isCompiled (unit : CompilationUnit) : Bool := unit.kind == .compiled

inductive TypeKind where
  | classType
  | structType
  | unionType
  | recordType
  | interface
  | abbreviation
  | attribute
  deriving DecidableEq

namespace TypeKind

def all : List TypeKind :=
  [.classType, .structType, .unionType, .recordType, .interface, .abbreviation, .attribute]

def label : TypeKind → String
  | .classType => "Class"
  | .structType => "Struct"
  | .unionType => "Union"
  | .recordType => "Record"
  | .interface => "Interface"
  | .abbreviation => "Abbreviation"
  | .attribute => "Attribute"

end TypeKind

inductive Access where
  | exported
  | internal
  deriving DecidableEq

def Access.label : Access → String
  | .exported => "Public"
  | .internal => "Internal"

structure TypeFlags where
  isSealed : Bool := false
  isAbstract : Bool := false
  /-- synthesized by the compiler into the unit under compilation -/
  isEmbedded : Bool := false
  /-- a value type that lives on the stack only -/
  isByRefLike : Bool := false
  deriving DecidableEq

namespace TypeFlags

def bits (flags : TypeFlags) : Nat :=
  flags.isSealed.toNat + 2 * flags.isAbstract.toNat + 4 * flags.isEmbedded.toNat +
    8 * flags.isByRefLike.toNat

def ofBits (bits : Nat) : TypeFlags where
  isSealed := bits.testBit 0
  isAbstract := bits.testBit 1
  isEmbedded := bits.testBit 2
  isByRefLike := bits.testBit 3

theorem ofBits_bits (flags : TypeFlags) : ofBits flags.bits = flags := by
  rcases flags with ⟨_ | _, _ | _, _ | _, _ | _⟩ <;> rfl

end TypeFlags

structure TypeSpec where
  path : NamespacePath
  name : Name
  kind : TypeKind
  arity : Nat := 0
  access : Access := .exported
  flags : TypeFlags := {}
  deriving DecidableEq

structure TypeDef where
  stamp : Stamp
  unit : UnitId
  path : NamespacePath
  name : Name
  kind : TypeKind
  arity : Nat
  access : Access
  flags : TypeFlags
  deriving DecidableEq

def TypeDef.isPublic (definition : TypeDef) : Bool := definition.access == .exported

/-- What one unit defines: by namespace, and in a namespace by simple name. -/
structure UnitContents where
  namespaces : Dictionary NamespacePath (Dictionary Name TypeDef) := {}
  deriving DecidableEq

namespace UnitContents

def namespaceAt (contents : UnitContents) (path : NamespacePath) : Dictionary Name TypeDef :=
  (contents.namespaces.get? path).getD {}

def lookup (contents : UnitContents) (path : NamespacePath) (name : Name) : Option TypeDef :=
  (contents.namespaces.get? path).bind fun types => types.get? name

def definitions (contents : UnitContents) : List TypeDef :=
  contents.namespaces.values.flatMap Dictionary.values

def insert (contents : UnitContents) (path : NamespacePath) (name : Name) (definition : TypeDef) :
    UnitContents :=
  ⟨contents.namespaces.set path ((contents.namespaceAt path).set name definition)⟩

end UnitContents

/-- What all units define, and the counters that the next unit and the next definition take their
identities from. -/
structure UnitStore where
  unitCount : Nat := 0
  stampCount : Nat := 0
  contents : Dictionary UnitId UnitContents := {}
  deriving DecidableEq

namespace UnitStore

def addUnit (store : UnitStore) (name : Name) (kind : UnitKind) : CompilationUnit × UnitStore :=
  (⟨⟨store.unitCount⟩, name, kind⟩, { store with unitCount := store.unitCount + 1 })

def contentsOf (store : UnitStore) (unit : UnitId) : UnitContents :=
  (store.contents.get? unit).getD {}

def lookup (store : UnitStore) (unit : UnitId) (path : NamespacePath) (name : Name) :
    Option TypeDef :=
  (store.contentsOf unit).lookup path name

def definitions (store : UnitStore) : List TypeDef :=
  store.contents.values.flatMap UnitContents.definitions

def defines (store : UnitStore) (unit : UnitId) (path : NamespacePath) (name : Name)
    (publicOnly : Bool) : Bool :=
  (store.lookup unit path name).any fun definition => !publicOnly || definition.isPublic

def size (store : UnitStore) (unit : UnitId) : Nat := (store.contentsOf unit).definitions.length

/-- The definition that the unit has under the path and the name of `spec` afterwards: an earlier
one if there is one, else a new one made from `spec`, which takes the next stamp. -/
def define (store : UnitStore) (unit : UnitId) (spec : TypeSpec) : TypeDef × UnitStore :=
  match store.lookup unit spec.path spec.name with
  | some earlier => (earlier, store)
  | none =>
    let definition : TypeDef :=
      { stamp := ⟨store.stampCount⟩
        unit, path := spec.path, name := spec.name, kind := spec.kind, arity := spec.arity
        access := spec.access, flags := spec.flags }
    let contents := (store.contentsOf unit).insert spec.path spec.name definition
    (definition, { store with
      stampCount := store.stampCount + 1, contents := store.contents.set unit contents })

end UnitStore

/-- A stand-in for a unit that was not found, with what to report when it is needed. -/
structure DeferredUnit where
  path : NamespacePath
  typeName : Name
  diagnostic : String
  deriving DecidableEq

inductive UnitRef where
  | found (unit : CompilationUnit)
  | deferred (missing : DeferredUnit)
  deriving DecidableEq

namespace UnitRef

def unit? : UnitRef → Option CompilationUnit
  | .found unit => some unit
  | .deferred _ => none

def isDeferred (ref : UnitRef) : Bool := ref.unit?.isNone

def force : UnitRef → Except SessionError CompilationUnit
  | .found unit => .ok unit
  | .deferred missing => .error (.deferredResolution missing.diagnostic)

/-- What a unit reference is compared by: found units by identity, missing ones by the type that was
looked for. -/
inductive Key where
  | found (unit : UnitId)
  | deferred (path : NamespacePath) (typeName : Name)
  deriving DecidableEq

def key : UnitRef → Key
  | .found unit => .found unit.id
  | .deferred missing => .deferred missing.path missing.typeName

end UnitRef

end TypeEnv
