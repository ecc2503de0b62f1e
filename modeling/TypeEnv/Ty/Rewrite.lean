import TypeEnv.Ty.Basic

namespace TypeEnv.Ty

def children : Ty → List Ty
  | .app _ _ args _ => args
  | .fn _ domain range _ => [domain, range]
  | .tuple _ _ elems => elems
  | .var .. => []

def withChildren (node : NodeId) (ty : Ty) (parts : List Ty) : Ty :=
  match ty, parts with
  | .app _ tycon _ nullness, args => .app node tycon args nullness
  | .fn _ _ _ nullness, [domain, range] => .fn node domain range nullness
  | .tuple _ kind _, elems => .tuple node kind elems
  | ty, _ => ty

/-- The node over the parts: the old node when they are its own parts, else a new one. -/
def rebuild (node : NodeId) (ty : Ty) (parts : List Ty) : Ty :=
  if parts = ty.children then ty else ty.withChildren node parts

@[simp] theorem rebuild_children (node : NodeId) (ty : Ty) : ty.rebuild node ty.children = ty :=
  if_pos rfl

def mapChildrenM {m : Type → Type} [Monad m] (node : NodeId) (map : Ty → m Ty) (ty : Ty) :
    m Ty := do
  return ty.rebuild node (← ty.children.mapM map)

mutual

/-- Every node, after its parts have been rewritten, is replaced by its image under `step`. -/
def rewrite (node : NodeId) (step : Ty → Ty) : Ty → Ty
  | .app old tycon args nullness =>
    step ((Ty.app old tycon args nullness).rebuild node (rewriteAll node step args))
  | .fn old domain range nullness =>
    step ((Ty.fn old domain range nullness).rebuild node
      [rewrite node step domain, rewrite node step range])
  | .tuple old kind elems =>
    step ((Ty.tuple old kind elems).rebuild node (rewriteAll node step elems))
  | .var old param => step (.var old param)
termination_by structural ty => ty

def rewriteAll (node : NodeId) (step : Ty → Ty) : List Ty → List Ty
  | [] => []
  | ty :: rest => rewrite node step ty :: rewriteAll node step rest
termination_by structural tys => tys

end

theorem rewriteAll_eq_map (node : NodeId) (step : Ty → Ty) (tys : List Ty) :
    rewriteAll node step tys = tys.map (rewrite node step) := by
  induction tys with
  | nil => rfl
  | cons ty rest ih => simp [rewriteAll, ih]

theorem rewrite_eq (node : NodeId) (step : Ty → Ty) (ty : Ty) :
    rewrite node step ty = step (ty.rebuild node (ty.children.map (rewrite node step))) := by
  cases ty with
  | var old param => exact congrArg step (rebuild_children node (.var old param)).symm
  | _ => simp only [rewrite, rewriteAll_eq_map, children, List.map_cons, List.map_nil]

def replaceVar (images : List Ty) : Ty → Ty
  | .var node param => (images[param.index]?).getD (.var node param)
  | ty => ty

def subst (node : NodeId) (images : List Ty) : Ty → Ty :=
  rewrite node (replaceVar images)

end TypeEnv.Ty
