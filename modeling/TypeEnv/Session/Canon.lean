import TypeEnv.Session.Basic

namespace TypeEnv.Session

/-- The rules of decompiling, which are fixed now if they were not before. -/
def fixDecompileRules : SessionM DecompileRules :=
  modifyGet fun session =>
    match session.decompileRules with
    | some rules => (rules, session)
    | none =>
      let rules :=
        DecompileRules.build session.tycons (session.config.supports .structTuples) session.units
      (rules, { session with decompileRules := some rules })

def fixImproveRules : SessionM ImproveRules :=
  modifyGet fun session =>
    match session.improveRules with
    | some rules => (rules, session)
    | none =>
      let rules := ImproveRules.build session.improveStrategy session.tycons session.units
      (rules, { session with improveRules := some rules })

def decompileTycon (tycon : TyconRef) (args : List Ty) (nullness : Nullness) :
    SessionM (Option Ty) := do
  let rules ← fixDecompileRules
  let node ← freshNode
  let session ← get
  return rules.decompileApp? session.tycons.tuples session.units node tycon args nullness

/-- The type with every node decompiled. A type without applications is its own result. -/
def decompileTy (ty : Ty) : SessionM Ty := do
  if ty.anyNode Ty.isApp then
    let rules ← fixDecompileRules
    let node ← freshNode
    let session ← get
    return rules.decompile session.tycons.tuples session.units node ty
  else
    return ty

def improveTycon (tycon : TyconRef) (args : List Ty) (nullness : Nullness) :
    SessionM (Option Ty) := do
  if args.isEmpty then
    let rules ← fixImproveRules
    let node ← freshNode
    let session ← get
    return rules.improveApp? session.prims session.units node tycon args nullness
  else
    return none

def improveTy (ty : Ty) : SessionM Ty := do
  if ty.anyNode Ty.isNullaryApp then
    let rules ← fixImproveRules
    let node ← freshNode
    let session ← get
    return rules.improve session.prims session.units node ty
  else
    return ty

end TypeEnv.Session
