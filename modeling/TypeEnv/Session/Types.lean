import TypeEnv.Session.Basic

namespace TypeEnv.Session

def mkApp (tycon : TyconRef) (args : List Ty) (nullness : Nullness := .ambivalent) :
    SessionM Ty := do
  return .app (← freshNode) tycon args nullness

def mkNamed (tycon : NamedTycon) (args : List Ty) : SessionM Ty := do
  mkApp ((← get).tycons.get tycon) args

def mkFn (domain range : Ty) (nullness : Nullness := .withoutNull) : SessionM Ty := do
  return .fn (← freshNode) domain range nullness

def mkIteratedFn (domains : List Ty) (range : Ty) : SessionM Ty := do
  let node ← freshNode
  return domains.foldr (fun domain range => .fn node domain range .withoutNull) range

def mkArray (rank : Nat) (elem : Ty) : SessionM Ty := do
  let tycon ← orBreach ((← get).tycons.array rank)
  mkApp tycon [elem] .withoutNull

def mkVar (param : TyParam) : SessionM Ty := do
  return .var (← freshNode) param

def mkTupleNode (kind : TupleKind) (elems : List Ty) : SessionM Ty := do
  return .tuple (← freshNode) kind elems

/-- A source tuple; a single element stands for itself. -/
def mkTuple (kind : TupleKind) : List Ty → SessionM Ty
  | [elem] => return elem
  | elems => mkTupleNode kind elems

def mkCompiledTuple (kind : TupleKind) (elems : List Ty) : SessionM Ty := do
  orBreach ((← get).tycons.tuples.encode (← freshNode) kind elems)

def decodeTuple (kind : TupleKind) (args : List Ty) : SessionM (Option Ty) := do
  return (← get).tycons.tuples.decode (← freshNode) kind args

def decodeDeep (ty : Ty) : SessionM Ty := do
  return (← get).tycons.tuples.decodeDeep (← freshNode) ty

def primWithNullness (kind : PrimitiveKind) (nullness : Nullness) : SessionM Ty := do
  return (← get).prims.withNullness (← freshNode) kind nullness

def rewriteNothing (ty : Ty) : SessionM Ty := do
  return Ty.rewrite (← freshNode) id ty

def subst (images : List Ty) (ty : Ty) : SessionM Ty := do
  return Ty.subst (← freshNode) images ty

end TypeEnv.Session
