import TypeEnv.Canon.StampRules
import TypeEnv.Primitive.Types
import TypeEnv.Ty.Rewrite

namespace TypeEnv

inductive ImproveStrategy where
  /-- by comparing references; this works before the type is defined -/
  | byName
  /-- by the stamp of the definition -/
  | byStamp
  deriving DecidableEq

def ImproveStrategy.label : ImproveStrategy → String
  | .byName => "ByName"
  | .byStamp => "ByStamp"

inductive ImproveRules where
  | byName (rules : List (TyconRef × PrimitiveKind))
  | byStamp (rules : StampRules PrimitiveKind)
  deriving DecidableEq

namespace ImproveRules

/-- The host constructors of the primitives that the language names differently. -/
def constructors (tycons : WellKnownTycons) : List (TyconRef × PrimitiveKind) :=
  PrimitiveKind.all.filterMap fun kind =>
    match tycons.hostPrim? kind with
    | some hostType =>
      if hostType.Same (tycons.corePrim kind) then none else some (hostType, kind)
    | none => none

def build (strategy : ImproveStrategy) (tycons : WellKnownTycons) (store : UnitStore) :
    ImproveRules :=
  match strategy with
  | .byName => .byName (constructors tycons)
  | .byStamp => .byStamp (StampRules.build store (constructors tycons))

def kind? (rules : ImproveRules) (store : UnitStore) (tycon : TyconRef) : Option PrimitiveKind :=
  match rules with
  | .byName rules => (rules.find? fun rule => rule.1.Same tycon).map Prod.snd
  | .byStamp rules => rules.find? store tycon

def improveApp? (rules : ImproveRules) (prims : PrimitiveTypes) (store : UnitStore) (node : NodeId)
    (tycon : TyconRef) (args : List Ty) (nullness : Nullness) : Option Ty :=
  if args.isEmpty then
    (rules.kind? store tycon).map fun kind => prims.withNullness node kind nullness
  else
    none

def improveNode (rules : ImproveRules) (prims : PrimitiveTypes) (store : UnitStore)
    (node : NodeId) : Ty → Ty
  | .app old tycon args nullness =>
    (rules.improveApp? prims store node tycon args nullness).getD (.app old tycon args nullness)
  | ty => ty

def improve (rules : ImproveRules) (prims : PrimitiveTypes) (store : UnitStore) (node : NodeId) :
    Ty → Ty :=
  Ty.rewrite node (rules.improveNode prims store node)

end ImproveRules

end TypeEnv
