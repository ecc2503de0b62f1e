import TypeEnv.Canon.StampRules
import TypeEnv.Tycon.WellKnown
import TypeEnv.Ty.Rewrite

namespace TypeEnv

inductive DecompileRule where
  | function
  | tuple (kind : TupleKind)
  deriving DecidableEq

structure DecompileRules where
  rules : StampRules DecompileRule
  deriving DecidableEq

namespace DecompileRules

/-- The constructors that have a rule, in order. Struct tuples stay nominal in a language version
that has none. -/
def constructors (tycons : WellKnownTycons) (structTuples : Bool) :
    List (TyconRef × DecompileRule) :=
  let tuplesOf (kind : TupleKind) :=
    (tycons.tuples.family kind).entries.map fun tycon => (tycon, DecompileRule.tuple kind)
  (tycons.get .func, .function) :: tuplesOf .reference ++
    if structTuples then tuplesOf .value else []

def build (tycons : WellKnownTycons) (structTuples : Bool) (store : UnitStore) : DecompileRules :=
  ⟨StampRules.build store (constructors tycons structTuples)⟩

def rule? (rules : DecompileRules) (store : UnitStore) (tycon : TyconRef) : Option DecompileRule :=
  rules.rules.find? store tycon

/-- The structural form of an application, if it has one. A function needs exactly two arguments. -/
def decompileApp? (rules : DecompileRules) (tuples : TupleTycons) (store : UnitStore)
    (node : NodeId) (tycon : TyconRef) (args : List Ty) (nullness : Nullness) : Option Ty :=
  match rules.rule? store tycon, args with
  | none, _ => none
  | some .function, [domain, range] => some (.fn node domain range nullness)
  | some .function, _ => none
  | some (.tuple kind), args => tuples.decode node kind args

def decompileNode (rules : DecompileRules) (tuples : TupleTycons) (store : UnitStore)
    (node : NodeId) : Ty → Ty
  | .app old tycon args nullness =>
    (rules.decompileApp? tuples store node tycon args nullness).getD (.app old tycon args nullness)
  | ty => ty

def decompile (rules : DecompileRules) (tuples : TupleTycons) (store : UnitStore) (node : NodeId) :
    Ty → Ty :=
  Ty.rewrite node (rules.decompileNode tuples store node)

end DecompileRules

end TypeEnv
