import TypeEnv.Intrinsic.Template
import TypeEnv.Primitive.Types

namespace TypeEnv

structure TemplateContext where
  tycons : WellKnownTycons
  prims : PrimitiveTypes
  typars : List Ty

namespace TemplateContext

mutual

/-- The type a template stands for. Primitives keep their shared handles and type parameters the
handles of the context. -/
def instantiate (context : TemplateContext) (node : NodeId) : Template → Except Breach Ty
  | .prim kind => .ok (context.prims.get kind)
  | .param index =>
    match context.typars[index]? with
    | some ty => .ok ty
    | none => .error (.missingTypeParameter index)
  | .app tycon args => do
    let args ← context.instantiateAll node args
    return .app node (context.tycons.get tycon) args .ambivalent
  | .array rank elem => do
    let tycon ← context.tycons.array rank
    let elem ← context.instantiate node elem
    return .app node tycon [elem] .withoutNull
  | .fn domain range => do
    let domain ← context.instantiate node domain
    let range ← context.instantiate node range
    return .fn node domain range .withoutNull
  | .tuple elems => do
    let elems ← context.instantiateAll node elems
    return .tuple node .reference elems
termination_by structural template => template

def instantiateAll (context : TemplateContext) (node : NodeId) :
    List Template → Except Breach (List Ty)
  | [] => .ok []
  | template :: rest => do
    let first ← context.instantiate node template
    let others ← context.instantiateAll node rest
    return first :: others
termination_by structural templates => templates

end

def instantiateGroups (context : TemplateContext) (node : NodeId) :
    List (List Template) → Except Breach (List (List Ty))
  | [] => .ok []
  | group :: rest => do
    let first ← context.instantiateAll node group
    let others ← context.instantiateGroups node rest
    return first :: others

/-- The type of one argument group: unit for none, the argument itself for one, else their tuple. -/
def groupDomain (context : TemplateContext) (node : NodeId) : List Ty → Ty
  | [] => context.prims.get .unit
  | [arg] => arg
  | args => .tuple node .reference args

def curriedTy (context : TemplateContext) (node : NodeId) (groups : List (List Ty)) (ret : Ty) :
    Ty :=
  groups.foldr (fun group range => .fn node (context.groupDomain node group) range .withoutNull) ret

end TemplateContext

end TypeEnv
