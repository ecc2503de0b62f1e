import TypeEnv.Primitive.Kind
import TypeEnv.Tuple

/-!
The well-known type constructors, each looked up once. Host types are found through the resolver and
core types in the standard library. While the standard library itself is compiled, both are types of
the unit under compilation and need not be defined yet.
-/

namespace TypeEnv

structure TyconScope where
  units : UnitStore
  resolver : Resolver
  localUnit : CompilationUnit
  coreUnit : UnitRef
  compilingStdLib : Bool

namespace TyconScope

def host (scope : TyconScope) (space name : String) : Interning TyconRef := do
  let path ← Interner.internPath space
  let name ← Interner.intern name
  if scope.compilingStdLib then
    return .inUnit scope.localUnit path name
  else
    let unit := scope.resolver.resolveOrDefer scope.units (← get) path name false
    return .named unit path name

/-- A type of the standard library. When the library is missing, the reference names the type that
was asked for. -/
def core (scope : TyconScope) (space name : String) : Interning TyconRef := do
  let path ← Interner.internPath space
  let name ← Interner.intern name
  if scope.compilingStdLib then
    return .inUnit scope.localUnit path name
  else if scope.coreUnit.isDeferred then
    return .named (.missing path name (← get)) path name
  else
    return .named scope.coreUnit path name

def find (scope : TyconScope) (location : TyconLocation) : Interning TyconRef :=
  match location.origin with
  | .host => scope.host location.space location.name
  | .core => scope.core location.space location.name

def hostPrim (scope : TyconScope) (kind : PrimitiveKind) : Interning (Option TyconRef) :=
  match kind.hostName? with
  | some name => some <$> scope.host systemNamespace name
  | none => pure none

/-- A primitive as the language names it. One without a name of its own is the host type. -/
def corePrim (scope : TyconScope) (hostType : Option TyconRef) (kind : PrimitiveKind) :
    Interning TyconRef :=
  match kind.coreName?, hostType with
  | none, some hostType => pure hostType
  | name, _ => scope.core coreNamespace (name.getD "Unit")

def tuples (scope : TyconScope) (family : String) : Interning (Table (Fin maxTuple) TyconRef) :=
  Table.ofFnM fun place => scope.host systemNamespace (tupleTyconName family (place.val + 1))

end TyconScope

structure WellKnownTycons where
  /-- the host counterparts of the primitives -/
  hostPrims : Table PrimitiveKind (Option TyconRef)
  /-- the primitives as the language names them -/
  corePrims : Table PrimitiveKind TyconRef
  named : Table NamedTycon TyconRef
  /-- position `i` holds the constructor of rank `i + 1` -/
  arrays : Table (Fin maxArrayRank) TyconRef
  tuples : TupleTycons

namespace WellKnownTycons

def locate (scope : TyconScope) : Interning WellKnownTycons := do
  let hostPrims ← Table.ofFnM scope.hostPrim
  let corePrims ← Table.ofFnM fun kind => scope.corePrim (hostPrims.get kind) kind
  let named ← Table.ofFnM fun tycon : NamedTycon => scope.find tycon.location
  let arrays ← Table.ofFnM fun place : Fin maxArrayRank =>
    scope.core coreNamespace (arrayTyconName (place.val + 1))
  let references ← scope.tuples "Tuple"
  let values ← scope.tuples "ValueTuple"
  return { hostPrims, corePrims, named, arrays, tuples := ⟨references, values⟩ }

def corePrim (tycons : WellKnownTycons) (kind : PrimitiveKind) : TyconRef :=
  tycons.corePrims.get kind

def hostPrim? (tycons : WellKnownTycons) (kind : PrimitiveKind) : Option TyconRef :=
  tycons.hostPrims.get kind

def get (tycons : WellKnownTycons) (tycon : NamedTycon) : TyconRef := tycons.named.get tycon

def array (tycons : WellKnownTycons) (rank : Nat) : Except Breach TyconRef :=
  if h : 1 ≤ rank ∧ rank ≤ maxArrayRank then
    .ok (tycons.arrays.get ⟨rank - 1, by omega⟩)
  else
    .error (.arrayRank rank)

def arrayRank? (tycons : WellKnownTycons) (tycon : TyconRef) : Option Nat :=
  (tycons.arrays.entries.findIdx? fun candidate => candidate.Same tycon).map (· + 1)

end WellKnownTycons

end TypeEnv
