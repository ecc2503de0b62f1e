import TypeEnv.Proofs.DeepDecoding

/-!
The type parameters of a type, in the order in which they stand in it. Canonicalization moves the
elements of nominal tuples from node to node and replaces applications that have no parts, so it
neither loses a type parameter, nor doubles one, nor puts one before another, whatever the arities
and the kinds of the tuples in the type.
-/

namespace TypeEnv

namespace Ty

mutual

def params : Ty → List TyParam
  | .app _ _ args _ => paramsAll args
  | .fn _ domain range _ => domain.params ++ range.params
  | .tuple _ _ elems => paramsAll elems
  | .var _ param => [param]
termination_by structural ty => ty

def paramsAll : List Ty → List TyParam
  | [] => []
  | ty :: rest => ty.params ++ paramsAll rest
termination_by structural tys => tys

end

variable {node : NodeId} {tycon : TyconRef} {args elems : List Ty} {nullness : Nullness}
  {domain range : Ty} {kind : TupleKind} {param : TyParam}

theorem paramsAll_eq_flatMap (tys : List Ty) : paramsAll tys = tys.flatMap params := by
  induction tys with
  | nil => rfl
  | cons ty rest ih => rw [paramsAll, ih, List.flatMap_cons]

@[simp] theorem params_app : (app node tycon args nullness).params = args.flatMap params := by
  rw [params, paramsAll_eq_flatMap]

@[simp] theorem params_fn : (fn node domain range nullness).params = domain.params ++ range.params :=
  rfl

@[simp] theorem params_tuple : (tuple node kind elems).params = elems.flatMap params := by
  rw [params, paramsAll_eq_flatMap]

@[simp] theorem params_var : (var node param).params = [param] := rfl

theorem flatMap_params_map {map : Ty → Ty} {tys : List Ty}
    (kept : ∀ ty ∈ tys, (map ty).params = ty.params) :
    (tys.map map).flatMap params = tys.flatMap params := by
  rw [List.flatMap_map]
  exact List.flatMap_congr kept

theorem params_rebuild {ty : Ty} {parts : List Ty}
    (kept : parts.flatMap params = ty.children.flatMap params) :
    (ty.rebuild node parts).params = ty.params := by
  rw [rebuild]
  split
  case isTrue => rfl
  case isFalse =>
    cases ty with
    | app old tycon args nullness => simpa [withChildren, children] using kept
    | fn old domain range nullness =>
        -- A function is put together again from two parts only.
        rcases parts with _ | ⟨left, _ | ⟨right, _ | ⟨other, rest⟩⟩⟩
        · rfl
        · rfl
        · simpa [withChildren, children] using kept
        · rfl
    | tuple old kind elems => simpa [withChildren, children] using kept
    | var old param => rfl

theorem params_rewrite {step : Ty → Ty} (kept : ∀ ty, (step ty).params = ty.params) (ty : Ty) :
    (rewrite node step ty).params = ty.params := by
  induction ty using children_induction with
  | node ty ih =>
      rw [rewrite_eq, kept]
      exact params_rebuild (flatMap_params_map ih)

end Ty

namespace TupleTycons

variable {tuples : TupleTycons} {node : NodeId} {kind : TupleKind} {slot source : Ty}
  {args flat inner : List Ty}

/-- The elements of a tuple have the type parameters of its arguments, if so has what an eighth
argument adds. -/
theorem flatMap_params_of_slot
    (kept : ∀ slot ∈ args, ∀ inner, tuples.continuation kind slot = some inner →
      inner.flatMap Ty.params = slot.params)
    (found : tuples.elements kind args = some flat) :
    flat.flatMap Ty.params = args.flatMap Ty.params := by
  rcases cases_of_elements found with ⟨_, rfl⟩ | ⟨seven, slot, _, rfl, rfl⟩
  · rfl
  · cases continued : tuples.continuation kind slot with
    | none => rw [Option.getD_none]
    | some inner =>
        have same := kept slot (List.mem_append_right _ List.mem_cons_self) inner continued
        rw [Option.getD_some, List.flatMap_append, List.flatMap_append, same,
          List.flatMap_singleton]

theorem flatMap_params_continuation (found : tuples.continuation kind slot = some inner) :
    inner.flatMap Ty.params = slot.params := by
  induction slot using Ty.induction generalizing inner with
  | app node tycon args nullness ih =>
      rw [continuation] at found
      split at found
      case h_1 => cases found
      case h_2 =>
        split at found
        case isTrue => cases found
        case isFalse =>
          rw [Ty.params_app]
          split at found
          case isTrue =>
            -- The nominal tuple of one argument adds its arguments as they are.
            cases found
            rfl
          case isFalse => exact flatMap_params_of_slot (fun slot member _ => ih slot member) found
  | fn => cases found
  | tuple node other elems =>
      rw [continuation] at found
      split at found
      case isTrue =>
        cases found
        exact Ty.params_tuple.symm
      case isFalse => cases found
  | var => cases found

theorem flatMap_params_elements (found : tuples.elements kind args = some flat) :
    flat.flatMap Ty.params = args.flatMap Ty.params :=
  flatMap_params_of_slot (fun _ _ _ => flatMap_params_continuation) found

theorem params_decode (decoded : tuples.decode node kind args = some source) :
    source.params = args.flatMap Ty.params := by
  obtain ⟨flat, found, rfl⟩ := Option.map_eq_some_iff.mp decoded
  rw [Ty.params_tuple, flatMap_params_elements found]

theorem params_decodeApp (tycon : TyconRef) (args : List Ty) (nullness : Nullness) :
    (tuples.decodeApp node tycon args nullness).params = args.flatMap Ty.params := by
  rw [decodeApp]
  split
  case h_1 => exact Ty.params_app
  case h_2 kind _ _ =>
    cases decoded : tuples.decode node kind args with
    | none => exact Ty.params_app
    | some source => exact params_decode decoded

theorem params_decodeDeep (tuples : TupleTycons) (node : NodeId) (ty : Ty) :
    (tuples.decodeDeep node ty).params = ty.params := by
  induction ty using Ty.induction with
  | app old tycon args nullness ih =>
      rw [decodeDeep_app, params_decodeApp, Ty.flatMap_params_map ih, Ty.params_app]
  | fn old domain range nullness ihDomain ihRange =>
      rw [decodeDeep, Ty.params_fn, ihDomain, ihRange, Ty.params_fn]
  | tuple old kind elems ih =>
      rw [decodeDeep_tuple, Ty.params_tuple, Ty.flatMap_params_map ih, Ty.params_tuple]
  | var old param => rfl

end TupleTycons

namespace DecompileRules

variable {rules : DecompileRules} {tuples : TupleTycons} {store : UnitStore} {node : NodeId}
  {tycon : TyconRef} {args : List Ty} {nullness : Nullness} {formed : Ty}

theorem params_decompileApp?
    (found : rules.decompileApp? tuples store node tycon args nullness = some formed) :
    formed.params = args.flatMap Ty.params := by
  simp only [decompileApp?] at found
  split at found
  case h_1 => cases found
  case h_2 domain range _ =>
    cases found
    rw [Ty.params_fn, List.flatMap_cons, List.flatMap_singleton]
  case h_3 => cases found
  case h_4 => exact TupleTycons.params_decode found

theorem params_decompileNode (node : NodeId) (ty : Ty) :
    (rules.decompileNode tuples store node ty).params = ty.params := by
  cases ty with
  | app old tycon args nullness =>
      rw [decompileNode]
      cases found : rules.decompileApp? tuples store node tycon args nullness with
      | none => rfl
      | some formed => rw [Option.getD_some, params_decompileApp? found, Ty.params_app]
  | fn => rfl
  | tuple => rfl
  | var => rfl

theorem params_decompile (node : NodeId) (ty : Ty) :
    (rules.decompile tuples store node ty).params = ty.params :=
  Ty.params_rewrite (params_decompileNode node) ty

end DecompileRules

namespace ImproveRules

variable {rules : ImproveRules} {prims : PrimitiveTypes} {store : UnitStore}

theorem params_improveNode (node : NodeId) (ty : Ty) :
    (rules.improveNode prims store node ty).params = ty.params := by
  cases ty with
  | app old tycon args nullness =>
      cases args with
      | nil =>
          rw [improveNode, improveApp?, if_pos List.isEmpty_nil]
          cases rules.kind? store tycon with
          | none => rfl
          | some kind =>
              obtain ⟨held, shown, result⟩ := exists_withNullness prims node kind nullness
              rw [Option.map_some, Option.getD_some, result]
              rfl
      | cons arg rest => rfl
  | fn => rfl
  | tuple => rfl
  | var => rfl

theorem params_improve (node : NodeId) (ty : Ty) :
    (rules.improve prims store node ty).params = ty.params :=
  Ty.params_rewrite (params_improveNode node) ty

end ImproveRules

namespace Session

/-- In whatever state a session is and however malformed a type is, the type decompiled, the type with
its nominal tuples decoded and the type improved have the type parameters of the type itself, in the
same order and each as often. -/
theorem canonical_params (session : Session) (ty : Ty) :
    (∃ result next, decompileTy ty session = .ok result next ∧ result.params = ty.params) ∧
    (∃ result next, decodeDeep ty session = .ok result next ∧ result.params = ty.params) ∧
    ∃ result next, improveTy ty session = .ok result next ∧ result.params = ty.params := by
  refine ⟨?decompiled, ?decoded, ?improved⟩
  case decompiled =>
    exact ⟨_, _, decompileTy_served session ty, DecompileRules.params_decompile _ ty⟩
  case decoded =>
    exact ⟨_, _, decodeDeep_served session ty, session.tycons.tuples.params_decodeDeep _ ty⟩
  case improved =>
    exact ⟨_, _, improveTy_served session ty, ImproveRules.params_improve _ ty⟩

end Session

end TypeEnv
