import TypeEnv.Session.Attributes
import TypeEnv.Session.Canon
import TypeEnv.Session.Intrinsics
import TypeEnv.Session.Types

/-!
What a session can be asked to do, in any order and any number of times. A request that fails leaves
behind what it did before it failed.
-/

namespace TypeEnv

inductive CanonQuery where
  | decompileTycon (tycon : TyconRef) (args : List Ty) (nullness : Nullness)
  | decompileTy (ty : Ty)
  | improveTycon (tycon : TyconRef) (args : List Ty) (nullness : Nullness)
  | improveTy (ty : Ty)

def CanonQuery.answer : CanonQuery → SessionM (Option Ty)
  | .decompileTycon tycon args nullness => Session.decompileTycon tycon args nullness
  | .decompileTy ty => some <$> Session.decompileTy ty
  | .improveTycon tycon args nullness => Session.improveTycon tycon args nullness
  | .improveTy ty => some <$> Session.improveTy ty

inductive Request where
  | intern (text : String)
  | findHostTycon (space name : String)
  | findCoreTycon (space name : String)
  | addUnit (name : Name) (kind : UnitKind)
  | define (unit : UnitId) (spec : TypeSpec)
  | canonicalize (query : CanonQuery)
  /-- makes a type from what the session holds and one new node number -/
  | makeType (make : Session → NodeId → Except Breach Ty)
  | instantiate (spec : IntrinsicSpec)
  | register (spec : IntrinsicSpec)
  | findAttribute (full : String)
  | tryFindAttribute (full : String)
  | findOrEmbedAttribute (full : String)

def Request.perform : Request → SessionM Unit
  | .intern text => do let _ ← Session.interns (Interner.intern text)
  | .findHostTycon space name => do let _ ← Session.findHostTycon space name
  | .findCoreTycon space name => do let _ ← Session.findCoreTycon space name
  | .addUnit name kind =>
    modify fun session => { session with units := (session.units.addUnit name kind).2 }
  | .define unit spec => do let _ ← Session.define unit spec
  | .canonicalize query => do let _ ← query.answer
  | .makeType make => do
    let node ← Session.freshNode
    let _ ← Session.orBreach (make (← get) node)
  | .instantiate spec => do let _ ← Session.instantiate spec
  | .register spec => do let _ ← Session.register spec
  | .findAttribute full => do let _ ← Session.findAttribute full
  | .tryFindAttribute full => do let _ ← Session.findAttribute? full
  | .findOrEmbedAttribute full => do let _ ← Session.findOrEmbedAttribute full

namespace Session

/-- The session as the computation leaves it, whether it fails or not. -/
def after {α : Type} (session : Session) (action : SessionM α) : Session :=
  match action session with
  | .ok _ next => next
  | .error _ next => next

end Session

end TypeEnv
