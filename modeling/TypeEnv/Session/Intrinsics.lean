import TypeEnv.Session.Basic

namespace TypeEnv.Session

def intrinsic (session : Session) (id : IntrinsicId) : Intrinsic := session.intrinsics.get id

def instantiate (spec : IntrinsicSpec) : SessionM Intrinsic := do
  let names ← interns spec.internNames
  let node ← freshNode
  let session ← get
  orBreach (spec.instantiate names session.tycons session.prims node)

def remake (id : IntrinsicId) : SessionM Intrinsic := instantiate id.spec

/-- Makes an intrinsic and registers it if it is a known one. A second known intrinsic under one
linkage key is a breach, and nothing is registered. -/
def register (spec : IntrinsicSpec) : SessionM Intrinsic := do
  let value ← instantiate spec
  if value.known then
    let known ← orBreach ((← get).known.insert value)
    modify fun session => { session with known }
  return value

/-- The linkage key spelled by these strings. A string that was never interned spells no key. -/
def keyOfStrings? (session : Session) (entity : String) (memberParent : Option String)
    (compiledName : String) (argCount : UInt32) : Option LinkageKey := do
  let memberParent ←
    match memberParent with
    | some parent => (session.interner.get? parent).map some
    | none => some none
  let entity ← session.interner.get? entity
  let compiledName ← session.interner.get? compiledName
  return { entity, memberParent, compiledName, argCount }

def findKnown? (session : Session) (entity : String) (memberParent : Option String)
    (compiledName : String) (argCount : UInt32) : Option Intrinsic :=
  (session.keyOfStrings? entity memberParent compiledName argCount).bind session.known.find?

end TypeEnv.Session
