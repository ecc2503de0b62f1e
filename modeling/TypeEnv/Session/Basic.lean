import TypeEnv.Attribute.WellKnown
import TypeEnv.Canon.Decompile
import TypeEnv.Canon.Improve
import TypeEnv.Intrinsic.Basic
import TypeEnv.Unit.Declaration

/-!
The global type environment of a compilation session. It is built once, from a configuration, the
loaded units and a resolver; units that are missing show only when something in them is needed.
Afterwards it changes in few ways: names are interned, types are defined, known intrinsics are
registered, attributes are looked up or embedded, and the rules of canonicalization are fixed at
their first use.
-/

namespace TypeEnv

structure SessionSetup where
  config : Config := {}
  units : UnitStore
  localUnit : CompilationUnit
  /-- the standard library, if it is loaded -/
  stdLib : Option CompilationUnit := none
  resolver : Resolver

def SessionSetup.scope (setup : SessionSetup) (coreUnit : UnitRef) : TyconScope where
  units := setup.units
  resolver := setup.resolver
  localUnit := setup.localUnit
  coreUnit := coreUnit
  compilingStdLib := setup.config.compilingStdLib

structure Session where
  config : Config
  interner : Interner
  units : UnitStore
  resolver : Resolver
  localUnit : CompilationUnit
  /-- the standard library, or its stand-in -/
  coreUnit : UnitRef
  tycons : WellKnownTycons
  prims : PrimitiveTypes
  intrinsics : Table IntrinsicId Intrinsic
  known : KnownTable
  attributes : AttributeCatalogue
  wellKnownAttributes : WellKnownAttributes
  /-- fixed at the first use -/
  decompileRules : Option DecompileRules := none
  /-- fixed at the first use -/
  improveRules : Option ImproveRules := none
  /-- the number of the nodes that the next operation makes -/
  nextNode : NodeId

/-- Computations of a session. What they did before a failure stays done. -/
abbrev SessionM := EStateM Failure Session

namespace Session

/-- The standard library: the unit under compilation when that is the standard library itself, else
the loaded library, else a stand-in. -/
def coreUnitOf (setup : SessionSetup) : Interning UnitRef :=
  if setup.config.compilingStdLib then
    return .found setup.localUnit
  else
    match setup.stdLib with
    | some library => return .found library
    | none => do
      let name ← Interner.intern setup.config.stdLibName
      return .deferred ⟨.root, name, setup.config.stdLibName ++ " not found"⟩

def intrinsicNode (id : IntrinsicId) : NodeId := PrimitiveTypes.sharedNode + 1 + id.index

def firstFreeNode : NodeId := PrimitiveTypes.sharedNode + 1 + IntrinsicId.all.length

def orBreach {σ α : Type} (result : Except Breach α) : EStateM Failure σ α :=
  match result with
  | .ok value => pure value
  | .error breach => throw (.breach breach)

def orError {σ α : Type} (result : Except SessionError α) : EStateM Failure σ α :=
  match result with
  | .ok value => pure value
  | .error error => throw (.error error)

def reportFull {α : Type} (action : Interning α) : EStateM Failure Interner α :=
  action.adaptExcept fun full => .breach (.shardFull full)

def makeIntrinsic (tycons : WellKnownTycons) (prims : PrimitiveTypes) (id : IntrinsicId) :
    EStateM Failure Interner Intrinsic := do
  let names ← reportFull id.spec.internNames
  orBreach (id.spec.instantiate names tycons prims (intrinsicNode id))

def knownAmong (intrinsics : Table IntrinsicId Intrinsic) : Except Breach KnownTable :=
  (intrinsics.entries.filter (·.known)).foldlM KnownTable.insert {}

def build (setup : SessionSetup) : EStateM Failure Interner Session := do
  let coreUnit ← reportFull (coreUnitOf setup)
  let tycons ← reportFull (WellKnownTycons.locate (setup.scope coreUnit))
  let prims : PrimitiveTypes := ⟨tycons.corePrims, setup.config.tracksNull⟩
  let intrinsics ← Table.ofFnM (makeIntrinsic tycons prims)
  let known ← orBreach (knownAmong intrinsics)
  let (wellKnownAttributes, attributes) ←
    reportFull (WellKnownAttributes.locate setup.resolver setup.units)
  return {
    config := setup.config, interner := ← get, units := setup.units, resolver := setup.resolver
    localUnit := setup.localUnit, coreUnit, tycons, prims, intrinsics, known, attributes
    wellKnownAttributes, nextNode := firstFreeNode }

/-- Builds the session. A configuration that is refused stops the work before anything is done. -/
def create (setup : SessionSetup) : EStateM Failure Interner Session :=
  match setup.config.validate with
  | .error reason => throw (.error (.invalidConfig reason))
  | .ok () => build setup

def interns {α : Type} (action : Interning α) : SessionM α := fun session =>
  match reportFull action session.interner with
  | .ok value interner => .ok value { session with interner }
  | .error failure interner => .error failure { session with interner }

def freshNode : SessionM NodeId :=
  modifyGet fun session => (session.nextNode, { session with nextNode := session.nextNode + 1 })

def define (unit : UnitId) (spec : TypeSpec) : SessionM TypeDef :=
  modifyGet fun session =>
    let (definition, units) := session.units.define unit spec
    (definition, { session with units })

def declare (unit : UnitId) (declaration : TypeDeclaration) : SessionM TypeDef := do
  define unit (← interns declaration.toSpec)

/-- Host types are compared by reference while the standard library is compiled, since they are
defined only as the work goes on. -/
def improveStrategy (session : Session) : ImproveStrategy :=
  if session.config.compilingStdLib then .byName else .byStamp

def scope (session : Session) : TyconScope where
  units := session.units
  resolver := session.resolver
  localUnit := session.localUnit
  coreUnit := session.coreUnit
  compilingStdLib := session.config.compilingStdLib

def resolveOrDefer (session : Session) (path : NamespacePath) (name : Name) (publicOnly : Bool) :
    UnitRef :=
  session.resolver.resolveOrDefer session.units session.interner path name publicOnly

def findHostTycon (space name : String) : SessionM TyconRef := do
  interns ((← get).scope.host space name)

def findCoreTycon (space name : String) : SessionM TyconRef := do
  interns ((← get).scope.core space name)

def deref (session : Session) (tycon : TyconRef) : Except SessionError TypeDef :=
  tycon.deref session.units session.interner

def diagnosticAt (session : Session) (error : SessionError) (source : String) : Diagnostic :=
  error.toDiagnostic.inFile (session.config.resolveSourcePath source)

end Session

end TypeEnv
