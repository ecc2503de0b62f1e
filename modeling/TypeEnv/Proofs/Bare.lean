import Mathlib.Data.List.Basic
import TypeEnv.Canon.Decompile
import TypeEnv.Canon.Improve
import TypeEnv.Proofs.Tuples

/-!
Types without node numbers. Canonicalization does not look at the numbers of nodes, so it gives
types that differ in nothing else, whatever number its new nodes take.
-/

namespace TypeEnv

namespace Ty

theorem children_induction {motive : Ty → Prop}
    (node : ∀ ty : Ty, (∀ part ∈ ty.children, motive part) → motive ty) (ty : Ty) : motive ty := by
  induction ty using Ty.induction with
  | app old tycon args nullness ih => exact node _ ih
  | fn old domain range nullness ihDomain ihRange =>
      apply node
      intro part member
      rcases List.mem_pair.mp member with rfl | rfl
      · exact ihDomain
      · exact ihRange
  | tuple old kind elems ih => exact node _ ih
  | var old param => exact node _ fun _ member => nomatch member

theorem map_map_congr {first second left right : Ty → Ty} {tys : List Ty}
    (same : ∀ ty ∈ tys, second (first ty) = right (left ty)) :
    (tys.map first).map second = (tys.map left).map right := by
  rw [List.map_map, List.map_map]
  exact List.map_congr_left same

mutual

/-- The type with every node numbered zero. -/
def bare : Ty → Ty
  | .app _ tycon args nullness => .app 0 tycon (bares args) nullness
  | .fn _ domain range nullness => .fn 0 domain.bare range.bare nullness
  | .tuple _ kind elems => .tuple 0 kind (bares elems)
  | .var _ param => .var 0 param
termination_by structural ty => ty

def bares : List Ty → List Ty
  | [] => []
  | ty :: rest => ty.bare :: bares rest
termination_by structural tys => tys

end

@[simp] theorem bares_eq_map (tys : List Ty) : bares tys = tys.map bare := by
  induction tys with
  | nil => rfl
  | cons ty rest ih => simp only [bares, ih, List.map_cons]

theorem shapes_bares {tys : List Ty} (same : ∀ ty ∈ tys, ty.bare.shape = ty.shape) :
    shapes (bares tys) = shapes tys := by
  rw [bares_eq_map, shapes_eq_map, shapes_eq_map, List.map_map]
  exact List.map_congr_left same

theorem shape_bare (ty : Ty) : ty.bare.shape = ty.shape := by
  induction ty using Ty.induction with
  | app node tycon args nullness ih => simp only [bare, shape, shapes_bares ih]
  | fn node domain range nullness ihDomain ihRange => simp only [bare, shape, ihDomain, ihRange]
  | tuple node kind elems ih => simp only [bare, shape, shapes_bares ih]
  | var node param => rfl

theorem alike_of_bare {first second : Ty} (same : first.bare = second.bare) :
    first.Alike second := by
  rw [Alike, ← shape_bare first, same, shape_bare]

theorem children_bare (ty : Ty) : ty.bare.children = ty.children.map bare := by
  cases ty <;> simp [bare, children]

theorem bare_withChildren (node : NodeId) (ty : Ty) (parts : List Ty) :
    (ty.withChildren node parts).bare = ty.bare.withChildren 0 (parts.map bare) := by
  cases ty with
  | app old tycon args nullness => simp only [withChildren, bare, bares_eq_map]
  | fn old domain range nullness =>
      match parts with
      | [] => rfl
      | [_] => rfl
      | [_, _] => rfl
      | _ :: _ :: _ :: _ => rfl
  | tuple old kind elems => simp only [withChildren, bare, bares_eq_map]
  | var old param => rfl

theorem withChildren_children (ty : Ty) : ty.bare.withChildren 0 ty.bare.children = ty.bare := by
  cases ty <;> rfl

theorem rebuild_bare (ty : Ty) (parts : List Ty) :
    ty.bare.rebuild 0 parts = ty.bare.withChildren 0 parts := by
  rw [rebuild]
  by_cases same : parts = ty.bare.children
  · rw [if_pos same, same, withChildren_children]
  · rw [if_neg same]

theorem bare_rebuild (node : NodeId) (ty : Ty) (parts : List Ty) :
    (ty.rebuild node parts).bare = ty.bare.rebuild 0 (parts.map bare) := by
  rw [rebuild_bare, rebuild]
  by_cases same : parts = ty.children
  · rw [if_pos same, same, ← children_bare, withChildren_children]
  · rw [if_neg same]
    exact bare_withChildren node ty parts

theorem bare_getD_app {found bareFound : Option Ty} (old : NodeId) (tycon : TyconRef)
    (args : List Ty) (nullness : Nullness) (maps : found.map Ty.bare = bareFound) :
    (found.getD (.app old tycon args nullness)).bare =
      bareFound.getD (Ty.app old tycon args nullness).bare := by
  subst maps
  cases found <;> rfl

theorem bare_rewrite {step bareStep : Ty → Ty} (commutes : ∀ ty, (step ty).bare = bareStep ty.bare)
    (node : NodeId) (ty : Ty) : (rewrite node step ty).bare = rewrite 0 bareStep ty.bare := by
  induction ty using children_induction with
  | node ty ih =>
      rw [rewrite_eq, rewrite_eq, commutes, bare_rebuild, map_map_congr ih, children_bare]

theorem anyNodes_eq_any (test : Ty → Bool) (tys : List Ty) :
    anyNodes test tys = tys.any (anyNode test) := by
  induction tys with
  | nil => rfl
  | cons ty rest ih => simp only [anyNodes, ih, List.any_cons]

theorem anyNode_eq (test : Ty → Bool) (ty : Ty) :
    ty.anyNode test = (test ty || ty.children.any (anyNode test)) := by
  cases ty with
  | app node tycon args nullness => simp only [anyNode, children, anyNodes_eq_any]
  | fn node domain range nullness =>
      simp only [anyNode, children, List.any_cons, List.any_nil, Bool.or_false, Bool.or_assoc]
  | tuple node kind elems => simp only [anyNode, children, anyNodes_eq_any]
  | var node param => simp only [anyNode, children, List.any_nil, Bool.or_false]

theorem anyNode_eq_false_iff {test : Ty → Bool} {ty : Ty} :
    ty.anyNode test = false ↔
      test ty = false ∧ ∀ part ∈ ty.children, part.anyNode test = false := by
  rw [anyNode_eq, Bool.or_eq_false_iff, List.any_eq_false]
  simp only [Bool.not_eq_true]

theorem rewrite_eq_self {step : Ty → Ty} {test : Ty → Bool}
    (fixes : ∀ ty, test ty = false → step ty = ty) (node : NodeId) {ty : Ty}
    (clean : ty.anyNode test = false) : rewrite node step ty = ty := by
  induction ty using children_induction with
  | node ty ih =>
      rw [anyNode_eq_false_iff] at clean
      have parts : ty.children.map (rewrite node step) = ty.children := by
        calc
          ty.children.map (rewrite node step) = ty.children.map id :=
            List.map_congr_left fun part member => ih part member (clean.2 part member)
          _ = ty.children := List.map_id _
      rw [rewrite_eq, parts, rebuild_children]
      exact fixes ty clean.1

end Ty

namespace TupleTycons

variable {tuples : TupleTycons} {kind : TupleKind}

theorem isTuple_of_classify {tycon : TyconRef} {found : TupleKind × Nat}
    (classified : tuples.classify tycon = some found) : tuples.isTuple tycon = true := by
  rw [isTuple, classified, Option.isSome_some]

/-- A map that keeps what an eighth and last argument adds goes through the elements. -/
theorem map_elements_of_slot {map : Ty → Ty} {args : List Ty}
    (slot : ∀ seven last, seven.length = 7 → args = seven ++ [last] →
      (tuples.continuation kind last).map (List.map map) =
        tuples.continuation kind (map last)) :
    (tuples.elements kind args).map (List.map map) = tuples.elements kind (args.map map) := by
  by_cases eight : args.length = maxTuple
  · obtain ⟨seven, last, length, rfl⟩ := exists_of_length_eight eight
    have kept := slot seven last length rfl
    rw [List.map_append, List.map_singleton, elements_of_eight length,
      elements_of_eight ((List.length_map map).trans length), ← kept, Option.map_some,
      List.map_append]
    cases tuples.continuation kind last <;> rfl
  · rw [elements_of_length_ne eight, elements_of_length_ne (by rwa [List.length_map]),
      List.length_map]
    split <;> rfl

theorem map_elements {map : Ty → Ty} {args : List Ty}
    (parts : ∀ arg ∈ args, (tuples.continuation kind arg).map (List.map map) =
      tuples.continuation kind (map arg)) :
    (tuples.elements kind args).map (List.map map) = tuples.elements kind (args.map map) := by
  apply map_elements_of_slot
  intro seven last _ whole
  apply parts
  rw [whole]
  exact List.mem_append_right _ List.mem_cons_self

section Map

variable {map : Ty → Ty} {node made : NodeId} {tycon : TyconRef} {args : List Ty}

theorem map_continuation_app (nullness : Nullness)
    (kept : tuples.isTuple tycon = true →
      (tuples.elements kind args).map (List.map map) = tuples.elements kind (args.map map)) :
    (tuples.continuation kind (.app node tycon args nullness)).map (List.map map) =
      tuples.continuation kind (.app made tycon (args.map map) nullness) := by
  rw [continuation, continuation]
  cases classified : tuples.classify tycon with
  | none => rfl
  | some found =>
      simp only
      split
      · rfl
      · split
        · rfl
        · exact kept (isTuple_of_classify classified)

theorem map_continuation_tuple (found : TupleKind) (elems : List Ty) :
    (tuples.continuation kind (.tuple node found elems)).map (List.map map) =
      tuples.continuation kind (.tuple made found (elems.map map)) := by
  rw [continuation, continuation]
  split <;> rfl

theorem map_decode
    (source : ∀ elems, map (.tuple node kind elems) = .tuple made kind (elems.map map))
    (kept : (tuples.elements kind args).map (List.map map) = tuples.elements kind (args.map map)) :
    (tuples.decode node kind args).map map = tuples.decode made kind (args.map map) := by
  rw [decode, decode, ← kept, Option.map_map, Option.map_map]
  congr 1
  funext elems
  exact source elems

end Map

theorem map_bare_continuation (slot : Ty) :
    (tuples.continuation kind slot).map (List.map Ty.bare) =
      tuples.continuation kind slot.bare := by
  induction slot using Ty.induction with
  | app node tycon args nullness ih =>
      rw [Ty.bare, Ty.bares_eq_map]
      exact map_continuation_app nullness fun _ => map_elements ih
  | fn => rfl
  | tuple node found elems =>
      rw [Ty.bare, Ty.bares_eq_map]
      exact map_continuation_tuple found elems
  | var => rfl

theorem map_bare_decode (node : NodeId) (args : List Ty) :
    (tuples.decode node kind args).map Ty.bare = tuples.decode 0 kind (args.map Ty.bare) := by
  apply map_decode
  case source =>
    intro elems
    rw [Ty.bare, Ty.bares_eq_map]
  case kept => exact map_elements fun arg _ => map_bare_continuation arg

end TupleTycons

namespace DecompileRules

variable {rules : DecompileRules} {tuples : TupleTycons} {store later : UnitStore}

/-- The structural form of an application is mapped by mapping the arguments, where the map keeps
functions and source tuples and goes through the elements of the tuple. -/
theorem map_decompileApp? {map : Ty → Ty} {node made : NodeId} {tycon : TyconRef} {args : List Ty}
    {nullness : Nullness}
    (function : ∀ domain range,
      map (.fn node domain range nullness) = .fn made (map domain) (map range) nullness)
    (source : ∀ kind elems, map (.tuple node kind elems) = .tuple made kind (elems.map map))
    (kept : ∀ kind, rules.rule? store tycon = some (.tuple kind) →
      (tuples.elements kind args).map (List.map map) = tuples.elements kind (args.map map)) :
    (rules.decompileApp? tuples store node tycon args nullness).map map =
      rules.decompileApp? tuples store made tycon (args.map map) nullness := by
  simp only [decompileApp?]
  cases found : rules.rule? store tycon with
  | none => rfl
  | some rule =>
      cases rule with
      | function =>
          rcases args with _ | ⟨domain, _ | ⟨range, _ | ⟨third, rest⟩⟩⟩
          case cons.cons.nil => exact congrArg some (function domain range)
          all_goals rfl
      | tuple kind => exact TupleTycons.map_decode (source kind) (kept kind found)

theorem map_bare_decompileApp? (node : NodeId) (tycon : TyconRef) (args : List Ty)
    (nullness : Nullness) :
    (rules.decompileApp? tuples store node tycon args nullness).map Ty.bare =
      rules.decompileApp? tuples store 0 tycon (args.map Ty.bare) nullness := by
  apply map_decompileApp?
  case function => exact fun _ _ => rfl
  case source =>
    intro kind elems
    rw [Ty.bare, Ty.bares_eq_map]
  case kept => exact fun _ _ => TupleTycons.map_elements fun arg _ =>
      TupleTycons.map_bare_continuation arg

theorem bare_decompileNode (node : NodeId) (ty : Ty) :
    (rules.decompileNode tuples store node ty).bare =
      rules.decompileNode tuples store 0 ty.bare := by
  cases ty with
  | app old tycon args nullness =>
      rw [decompileNode, Ty.bare_getD_app old tycon args nullness
        (map_bare_decompileApp? node tycon args nullness), Ty.bare, Ty.bares_eq_map]
      rfl
  | fn => rfl
  | tuple => rfl
  | var => rfl

theorem bare_decompile (node : NodeId) (ty : Ty) :
    (rules.decompile tuples store node ty).bare = rules.decompile tuples store 0 ty.bare :=
  Ty.bare_rewrite (bare_decompileNode node) node ty

theorem decompileNode_of_not_isApp (node : NodeId) {ty : Ty} (apart : ty.isApp = false) :
    rules.decompileNode tuples store node ty = ty := by
  cases ty with
  | app => cases apart
  | fn => rfl
  | tuple => rfl
  | var => rfl

theorem decompile_eq_self (node : NodeId) {ty : Ty} (clean : ty.anyNode Ty.isApp = false) :
    rules.decompile tuples store node ty = ty :=
  Ty.rewrite_eq_self (fun _ => decompileNode_of_not_isApp node) node clean

theorem decompileApp?_congr (same : ∀ tycon, rules.rule? later tycon = rules.rule? store tycon) :
    rules.decompileApp? tuples later = rules.decompileApp? tuples store := by
  funext node tycon args nullness
  simp only [decompileApp?, same]

theorem decompile_congr (same : ∀ tycon, rules.rule? later tycon = rules.rule? store tycon)
    (node : NodeId) : rules.decompile tuples later node = rules.decompile tuples store node := by
  have nodes : rules.decompileNode tuples later node = rules.decompileNode tuples store node := by
    funext ty
    simp only [decompileNode, decompileApp?_congr same]
  rw [decompile, decompile, nodes]

end DecompileRules

namespace ImproveRules

variable {rules : ImproveRules} {prims : PrimitiveTypes} {store later : UnitStore}

theorem bare_withNullness (node : NodeId) (kind : PrimitiveKind) (nullness : Nullness) :
    (prims.withNullness node kind nullness).bare = prims.withNullness 0 kind nullness := by
  simp only [PrimitiveTypes.withNullness]
  split <;> rfl

theorem map_bare_improveApp? (node : NodeId) (tycon : TyconRef) (args : List Ty)
    (nullness : Nullness) :
    (rules.improveApp? prims store node tycon args nullness).map Ty.bare =
      rules.improveApp? prims store 0 tycon (args.map Ty.bare) nullness := by
  cases args with
  | nil =>
      simp only [improveApp?, List.isEmpty_nil, if_true, List.map_nil, Option.map_map]
      congr 1
      funext kind
      exact bare_withNullness node kind nullness
  | cons arg rest => rfl

theorem bare_improveNode (node : NodeId) (ty : Ty) :
    (rules.improveNode prims store node ty).bare = rules.improveNode prims store 0 ty.bare := by
  cases ty with
  | app old tycon args nullness =>
      rw [improveNode, Ty.bare_getD_app old tycon args nullness
        (map_bare_improveApp? node tycon args nullness), Ty.bare, Ty.bares_eq_map]
      rfl
  | fn => rfl
  | tuple => rfl
  | var => rfl

theorem bare_improve (node : NodeId) (ty : Ty) :
    (rules.improve prims store node ty).bare = rules.improve prims store 0 ty.bare :=
  Ty.bare_rewrite (bare_improveNode node) node ty

theorem improveNode_of_not_isNullaryApp (node : NodeId) {ty : Ty}
    (apart : ty.isNullaryApp = false) : rules.improveNode prims store node ty = ty := by
  cases ty with
  | app old tycon args nullness =>
      cases args with
      | nil => cases apart
      | cons arg rest => rfl
  | fn => rfl
  | tuple => rfl
  | var => rfl

theorem improve_eq_self (node : NodeId) {ty : Ty} (clean : ty.anyNode Ty.isNullaryApp = false) :
    rules.improve prims store node ty = ty :=
  Ty.rewrite_eq_self (fun _ => improveNode_of_not_isNullaryApp node) node clean

theorem improveApp?_congr (same : ∀ tycon, rules.kind? later tycon = rules.kind? store tycon) :
    rules.improveApp? prims later = rules.improveApp? prims store := by
  funext node tycon args nullness
  simp only [improveApp?, same]

theorem improve_congr (same : ∀ tycon, rules.kind? later tycon = rules.kind? store tycon)
    (node : NodeId) : rules.improve prims later node = rules.improve prims store node := by
  have nodes : rules.improveNode prims later node = rules.improveNode prims store node := by
    funext ty
    simp only [improveNode, improveApp?_congr same]
  rw [improve, improve, nodes]

end ImproveRules

end TypeEnv
