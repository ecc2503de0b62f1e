import TypeEnv.Proofs.Applications
import TypeEnv.Proofs.Intrinsics

/-!
Putting types in for the type parameters of an intrinsic. The result is what the signature stands
for at those types, apart from the numbers of nodes. All parameters are replaced at once, so the
types that are put in may have type parameters at the same positions.
-/

namespace TypeEnv

namespace Ty

theorem bare_replaceVar (images : List Ty) (ty : Ty) :
    (replaceVar images ty).bare = replaceVar (images.map bare) ty.bare := by
  cases ty with
  | app => rfl
  | fn => rfl
  | tuple => rfl
  | var node param =>
      simp only [replaceVar, bare, List.getElem?_map]
      cases images[param.index]? <;> rfl

theorem bare_subst (node : NodeId) (images : List Ty) (ty : Ty) :
    (subst node images ty).bare = subst 0 (images.map bare) ty.bare :=
  bare_rewrite (bare_replaceVar images) node ty

section Nodes

variable (images : List Ty) (node old : NodeId)

theorem subst_app (tycon : TyconRef) (args : List Ty) (nullness : Nullness) :
    subst node images (.app node tycon args nullness) =
      .app node tycon (args.map (subst node images)) nullness :=
  rewrite_app ..

theorem subst_fn (domain range : Ty) (nullness : Nullness) :
    subst node images (.fn node domain range nullness) =
      .fn node (subst node images domain) (subst node images range) nullness :=
  rewrite_fn ..

theorem subst_tuple (kind : TupleKind) (elems : List Ty) :
    subst node images (.tuple node kind elems) =
      .tuple node kind (elems.map (subst node images)) :=
  rewrite_tuple ..

theorem bare_subst_app (tycon : TyconRef) (args : List Ty) (nullness : Nullness) :
    (subst node images (.app old tycon args nullness)).bare =
      .app 0 tycon (args.map fun arg => (subst node images arg).bare) nullness := by
  simp only [bare_subst, bare, bares_eq_map, subst_app, List.map_map, Function.comp_def]

theorem bare_subst_fn (domain range : Ty) (nullness : Nullness) :
    (subst node images (.fn old domain range nullness)).bare =
      .fn 0 (subst node images domain).bare (subst node images range).bare nullness := by
  simp only [bare_subst, bare, subst_fn]

theorem bare_subst_tuple (kind : TupleKind) (elems : List Ty) :
    (subst node images (.tuple old kind elems)).bare =
      .tuple 0 kind (elems.map fun elem => (subst node images elem).bare) := by
  simp only [bare_subst, bare, bares_eq_map, subst_tuple, List.map_map, Function.comp_def]

theorem subst_var (param : TyParam) :
    subst node images (.var old param) = (images[param.index]?).getD (.var old param) := rfl

end Nodes

def curried (domains : List Ty) (range : Ty) : Ty :=
  domains.foldr (fun domain range => .fn 0 domain range .withoutNull) range

end Ty

namespace TemplateContext

variable {context : TemplateContext} {images : List Ty} {node old new : NodeId}

def withTypars (context : TemplateContext) (images : List Ty) : TemplateContext :=
  { context with typars := images }

/-- Substituting the images turns each type of the context into the image at its position. -/
def Opens (context : TemplateContext) (node : NodeId) (images : List Ty) : Prop :=
  List.Forall₂ (fun ty image => (Ty.subst node images ty).bare = image.bare) context.typars images

theorem Opens.typar (opens : context.Opens node images) {index : Nat} {ty : Ty}
    (found : context.typars[index]? = some ty) :
    ∃ image, images[index]? = some image ∧ (Ty.subst node images ty).bare = image.bare := by
  rcases List.getElem?_eq_some_iff.mp found with ⟨bound, rfl⟩
  have boundImages : index < images.length := opens.length_eq ▸ bound
  exact ⟨images[index], List.getElem?_eq_getElem boundImages, opens.get bound boundImages⟩

theorem opens_vars {params : List TyParam} {tycons : WellKnownTycons} {prims : PrimitiveTypes}
    (placed : params.map TyParam.index = List.range params.length)
    (length : images.length = params.length) :
    Opens ⟨tycons, prims, params.map (.var old)⟩ node images := by
  rw [Opens, List.forall₂_map_left_iff, List.forall₂_iff_get]
  refine ⟨length.symm, fun index bound boundImages => ?_⟩
  have place : params[index].index = index := TyParam.index_of_placed placed bound
  simp [Ty.subst_var, place, boundImages]

theorem bare_subst_prim (kind : PrimitiveKind) :
    (Ty.subst node images (context.prims.get kind)).bare = (context.prims.get kind).bare :=
  Ty.bare_subst_app ..

mutual

theorem subst_instantiate (new : NodeId) (opens : context.Opens node images) :
    ∀ (template : Template) {ty : Ty}, context.instantiate old template = .ok ty →
      ∃ image, (context.withTypars images).instantiate new template = .ok image ∧
        (Ty.subst node images ty).bare = image.bare
  | .prim kind, ty, made => by
      cases made
      exact ⟨_, rfl, bare_subst_prim kind⟩
  | .param index, ty, made => by
      -- Only here is something put in. What is put in is not looked into again, so it does not
      -- matter which type parameters it has.
      simp only [instantiate] at made
      split at made
      case h_1 found =>
        cases made
        rcases opens.typar found with ⟨image, put, same⟩
        exact ⟨image, by simp only [instantiate, withTypars, put], same⟩
      case h_2 => cases made
  | .app tycon args, ty, made => by
      rcases exists_of_bind made with ⟨tys, parts, whole⟩
      cases whole
      rcases subst_instantiateAll new opens args parts with ⟨others, put, same⟩
      refine ⟨_, by simp only [instantiate, put]; rfl, ?_⟩
      rw [Ty.bare_subst_app, same, Ty.bare, Ty.bares_eq_map]
      rfl
  | .array rank elem, ty, made => by
      rcases exists_of_bind made with ⟨tycon, ranked, inner⟩
      rcases exists_of_bind inner with ⟨elemTy, part, whole⟩
      cases whole
      rcases subst_instantiate new opens elem part with ⟨image, put, same⟩
      refine ⟨.app new tycon [image] .withoutNull, ?_, ?_⟩
      · simp only [instantiate, withTypars, ranked] at put ⊢
        rw [put]
        rfl
      · rw [Ty.bare_subst_app, List.map_singleton, same, Ty.bare, Ty.bares_eq_map,
          List.map_singleton]
  | .fn domain range, ty, made => by
      rcases exists_of_bind made with ⟨domainTy, left, inner⟩
      rcases exists_of_bind inner with ⟨rangeTy, right, whole⟩
      cases whole
      rcases subst_instantiate new opens domain left with ⟨domainImage, putDomain, sameDomain⟩
      rcases subst_instantiate new opens range right with ⟨rangeImage, putRange, sameRange⟩
      refine ⟨_, by simp only [instantiate, putDomain, putRange]; rfl, ?_⟩
      rw [Ty.bare_subst_fn, sameDomain, sameRange, Ty.bare]
  | .tuple elems, ty, made => by
      rcases exists_of_bind made with ⟨tys, parts, whole⟩
      cases whole
      rcases subst_instantiateAll new opens elems parts with ⟨others, put, same⟩
      refine ⟨_, by simp only [instantiate, put]; rfl, ?_⟩
      rw [Ty.bare_subst_tuple, same, Ty.bare, Ty.bares_eq_map]
termination_by structural template => template

theorem subst_instantiateAll (new : NodeId) (opens : context.Opens node images) :
    ∀ (templates : List Template) {tys : List Ty},
      context.instantiateAll old templates = .ok tys →
        ∃ others, (context.withTypars images).instantiateAll new templates = .ok others ∧
          tys.map (fun ty => (Ty.subst node images ty).bare) = others.map Ty.bare
  | [], tys, made => by
      cases made
      exact ⟨[], rfl, rfl⟩
  | template :: rest, tys, made => by
      rcases exists_of_bind made with ⟨ty, first, inner⟩
      rcases exists_of_bind inner with ⟨others, later, whole⟩
      cases whole
      rcases subst_instantiate new opens template first with ⟨image, put, same⟩
      rcases subst_instantiateAll new opens rest later with ⟨images, puts, sames⟩
      refine ⟨image :: images, by simp only [instantiateAll, put, puts]; rfl, ?_⟩
      rw [List.map_cons, List.map_cons, same, sames]
termination_by structural templates => templates

end

def GroupImages (node : NodeId) (images : List Ty) : List (List Ty) → List (List Ty) → Prop :=
  List.Forall₂ fun group others =>
    group.map (fun ty => (Ty.subst node images ty).bare) = others.map Ty.bare

theorem subst_instantiateGroups (new : NodeId) (opens : context.Opens node images)
    {groups : List (List Template)} {tys : List (List Ty)}
    (made : context.instantiateGroups old groups = .ok tys) :
    ∃ others, (context.withTypars images).instantiateGroups new groups = .ok others ∧
      GroupImages node images tys others := by
  induction groups generalizing tys with
  | nil =>
      cases made
      exact ⟨[], rfl, .nil⟩
  | cons group rest ih =>
      rcases exists_of_bind made with ⟨first, firstMade, inner⟩
      rcases exists_of_bind inner with ⟨later, laterMade, whole⟩
      cases whole
      rcases subst_instantiateAll new opens group firstMade with ⟨image, put, same⟩
      rcases ih laterMade with ⟨others, puts, sames⟩
      exact ⟨image :: others, by simp only [instantiateGroups, put, puts]; rfl, .cons same sames⟩

theorem subst_groupDomain {tys others : List Ty}
    (same : tys.map (fun ty => (Ty.subst node images ty).bare) = others.map Ty.bare) :
    (Ty.subst node images (context.groupDomain old tys)).bare =
      ((context.withTypars images).groupDomain new others).bare := by
  match tys, others with
  | [], [] => exact bare_subst_prim .unit
  | [ty], [other] => exact List.singleton_inj.mp same
  | first :: second :: rest, firstOther :: secondOther :: others =>
      simp only [groupDomain]
      rw [Ty.bare_subst_tuple, same, Ty.bare, Ty.bares_eq_map]
  | [], _ :: _ => cases same
  | _ :: _, [] => cases same
  | [_], _ :: _ :: _ => cases (List.cons.inj same).2
  | _ :: _ :: _, [_] => cases (List.cons.inj same).2

theorem subst_curriedTy {groups others : List (List Ty)} {ret image : Ty}
    (same : GroupImages node images groups others)
    (result : (Ty.subst node images ret).bare = image.bare) :
    (Ty.subst node images (context.curriedTy old groups ret)).bare =
      ((context.withTypars images).curriedTy new others image).bare := by
  induction same with
  | nil => exact result
  | cons first _ ih =>
      simp only [curriedTy, List.foldr_cons] at ih ⊢
      rw [Ty.bare_subst_fn, subst_groupDomain first, ih, Ty.bare]

end TemplateContext

/-- The template stands for the type, whatever number its nodes take. -/
def Template.Stands (template : Template) (context : TemplateContext) (expected : Ty) : Prop :=
  ∀ node, ∃ ty, context.instantiate node template = .ok ty ∧ ty.bare = expected.bare

namespace Template

variable {context : TemplateContext} {elem : Template} {ty : Ty}

theorem stands_prim (kind : PrimitiveKind) :
    (prim kind).Stands context (context.prims.get kind) :=
  fun _ => ⟨_, rfl, rfl⟩

theorem stands_param {index : Nat} (found : context.typars[index]? = some ty) :
    (param index).Stands context ty :=
  fun _ => ⟨ty, by simp only [TemplateContext.instantiate, found], rfl⟩

section Positions

variable {tycons : WellKnownTycons} {prims : PrimitiveTypes} {first second third : Ty}
  {rest : List Ty}

theorem stands_t : t.Stands ⟨tycons, prims, first :: rest⟩ first := stands_param rfl

theorem stands_u : u.Stands ⟨tycons, prims, first :: second :: rest⟩ second := stands_param rfl

theorem stands_v : v.Stands ⟨tycons, prims, first :: second :: third :: rest⟩ third :=
  stands_param rfl

end Positions

theorem stands_array {rank : Nat} {tycon : TyconRef}
    (ranked : context.tycons.array rank = .ok tycon) (inner : elem.Stands context ty) :
    (array rank elem).Stands context (.app 0 tycon [ty] .withoutNull) := by
  intro node
  rcases inner node with ⟨made, put, same⟩
  refine ⟨_, by simp only [TemplateContext.instantiate, ranked, put]; rfl, ?_⟩
  simp only [Ty.bare, Ty.bares_eq_map, List.map_singleton, same]

end Template

namespace Signature

variable {context : TemplateContext} {images domains : List Ty} {node old : NodeId}
  {signature : Signature} {args : List Template} {ret : Template} {range expected : Ty}

def typeIn (signature : Signature) (context : TemplateContext) (node : NodeId) :
    Except Breach Ty := do
  let groups ← context.instantiateGroups node signature.args
  let ret ← context.instantiate node signature.ret
  return context.curriedTy node groups ret

def Stands (signature : Signature) (context : TemplateContext) (expected : Ty) : Prop :=
  ∀ node, ∃ ty, signature.typeIn context node = .ok ty ∧ ty.bare = expected.bare

theorem subst_typeIn (opens : context.Opens node images) {ty : Ty}
    (made : signature.typeIn context old = .ok ty) :
    ∃ image, signature.typeIn (context.withTypars images) old = .ok image ∧
      (Ty.subst node images ty).bare = image.bare := by
  rcases exists_of_bind made with ⟨groups, groupsMade, inner⟩
  rcases exists_of_bind inner with ⟨result, resultMade, whole⟩
  cases whole
  rcases TemplateContext.subst_instantiateGroups old opens groupsMade with ⟨others, puts, sames⟩
  rcases TemplateContext.subst_instantiate old opens signature.ret resultMade with ⟨image, put, same⟩
  refine ⟨_, by simp only [typeIn, puts, put]; rfl, ?_⟩
  exact TemplateContext.subst_curriedTy sames same

theorem exists_curriedTy {made : Ty} (same : made.bare = range.bare)
    (arguments : List.Forall₂ (fun arg domain => arg.Stands context domain) args domains)
    (node : NodeId) :
    ∃ groups, context.instantiateGroups node (args.map ([·])) = .ok groups ∧
      (context.curriedTy node groups made).bare = (Ty.curried domains range).bare := by
  induction arguments with
  | nil => exact ⟨[], rfl, same⟩
  | cons first _ ih =>
      rcases first node with ⟨ty, put, sameTy⟩
      rcases ih with ⟨groups, puts, sames⟩
      refine ⟨[ty] :: groups, ?_, ?_⟩
      · simp only [List.map_cons, TemplateContext.instantiateGroups,
          TemplateContext.instantiateAll, put, puts]
        rfl
      · simp only [TemplateContext.curriedTy, Ty.curried, List.foldr_cons] at sames ⊢
        rw [Ty.bare, Ty.bare, TemplateContext.groupDomain, sameTy, sames]

theorem stands_curried
    (arguments : List.Forall₂ (fun arg domain => arg.Stands context domain) args domains)
    (result : ret.Stands context range) :
    (curried args ret).Stands context (Ty.curried domains range) := by
  intro node
  rcases result node with ⟨made, put, same⟩
  rcases exists_curriedTy same arguments node with ⟨groups, puts, sames⟩
  exact ⟨_, by simp only [typeIn, curried, puts, put]; rfl, sames⟩

theorem stands_nullary (image : Ty) (tycons : WellKnownTycons) (prims : PrimitiveTypes) :
    nullary.Stands ⟨tycons, prims, [image]⟩ (Ty.curried [prims.get .unit] image) :=
  fun _ => ⟨_, rfl, rfl⟩

theorem argCount_curried (args : List Template) (ret : Template) :
    (curried args ret).argCount = args.length := by
  induction args with
  | nil => rfl
  | cons arg rest ih =>
      simp only [argCount, curried, List.map_cons, List.flatten_cons] at ih ⊢
      rw [List.length_append, ih, List.length_singleton, List.length_cons, Nat.add_comm]

end Signature

namespace Intrinsic.MadeFrom

variable {value : Intrinsic} {spec : IntrinsicSpec} {tycons : WellKnownTycons}
  {prims : PrimitiveTypes} {interner : Interner} {images : List Ty} {expected : Ty}

/-- What an instance takes from its description: a parameter at every position, the number of
arguments, and the type that the signature stands for over the parameters themselves. -/
theorem exists_typed (made : value.MadeFrom spec tycons prims interner) :
    ∃ node, value.typars.map TyParam.index = List.range spec.typars.length ∧
      value.key.argCount = UInt32.ofNat spec.signature.argCount ∧
      spec.signature.typeIn ⟨tycons, prims, value.typars.map (.var node)⟩ node = .ok value.ty := by
  rcases made with ⟨names, node, spell, made⟩
  rcases exists_of_bind made with ⟨groups, groupsMade, inner⟩
  rcases exists_of_bind inner with ⟨ret, retMade, whole⟩
  cases whole
  refine ⟨node, spell.placed, rfl, ?_⟩
  simp only [Signature.typeIn, groupsMade, retMade]
  rfl

theorem length_typars (made : value.MadeFrom spec tycons prims interner) :
    value.typars.length = spec.typars.length := by
  rcases made.exists_typed with ⟨_, placed, _⟩
  exact TyParam.length_of_placed placed

theorem argCount (made : value.MadeFrom spec tycons prims interner) :
    value.key.argCount = UInt32.ofNat spec.signature.argCount := by
  rcases made.exists_typed with ⟨_, _, count, _⟩
  exact count

theorem subst_alike (made : value.MadeFrom spec tycons prims interner)
    (length : images.length = spec.typars.length)
    (stands : spec.signature.Stands ⟨tycons, prims, images⟩ expected) (node : NodeId) :
    (Ty.subst node images value.ty).Alike expected := by
  rcases made.exists_typed with ⟨old, placed, _, typed⟩
  have opens : TemplateContext.Opens ⟨tycons, prims, value.typars.map (.var old)⟩ node images := by
    rw [← made.length_typars] at placed length
    exact TemplateContext.opens_vars placed length
  rcases Signature.subst_typeIn opens typed with ⟨image, put, same⟩
  rcases stands old with ⟨ty, standing, sameExpected⟩
  obtain rfl : image = ty := Except.ok.inj (put.symm.trans standing)
  exact Ty.alike_of_bare (same.trans sameExpected)

end Intrinsic.MadeFrom

end TypeEnv
