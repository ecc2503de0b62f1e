import TypeEnv.Proofs.Intrinsics
import TypeEnv.Proofs.TypeParameters

namespace TypeEnv

section Lists

variable {ε α β : Type} {relates : α → β → Prop} {items : List α} {images : List β}

theorem forall₂_of_mapM {entry : α → Except ε β} (made : items.mapM entry = .ok images) :
    List.Forall₂ (fun item image => entry item = .ok image) items images := by
  induction items generalizing images with
  | nil =>
      cases made
      exact .nil
  | cons item rest ih =>
      rw [List.mapM_cons] at made
      rcases exists_of_bind made with ⟨image, first, inner⟩
      rcases exists_of_bind inner with ⟨others, later, whole⟩
      cases whole
      exact .cons first (ih later)

theorem exists_related {item : α} (related : List.Forall₂ relates items images)
    (member : item ∈ items) : ∃ image ∈ images, relates item image := by
  induction related with
  | nil => cases member
  | @cons first image rest others now _ ih =>
      rcases List.mem_cons.mp member with rfl | later
      · exact ⟨image, List.mem_cons_self, now⟩
      · obtain ⟨other, listed, same⟩ := ih later
        exact ⟨other, List.mem_cons_of_mem _ listed, same⟩

end Lists

namespace Template

variable {typars : Nat} {part template : Template} {templates : List Template}

def parts : Template → List Template
  | .prim _ => []
  | .param _ => []
  | .app _ args => args
  | .array _ elem => [elem]
  | .fn domain range => [domain, range]
  | .tuple elems => elems

theorem induction {motive : Template → Prop}
    (node : ∀ template, (∀ inner ∈ template.parts, motive inner) → motive template)
    (template : Template) : motive template :=
  @Template.rec motive (fun templates => ∀ inner ∈ templates, motive inner)
    (fun _ => node _ nofun) (fun _ => node _ nofun) (fun _ _ args => node _ args)
    (fun _ _ elem => node _ (List.forall_mem_singleton.mpr elem))
    (fun _ _ domain range =>
      node _ (List.forall_mem_cons.mpr ⟨domain, List.forall_mem_singleton.mpr range⟩))
    (fun _ elems => node _ elems) nofun
    (fun _ _ first rest => List.forall_mem_cons.mpr ⟨first, rest⟩) template

inductive Occurs (part : Template) : Template → Prop where
  | here : Occurs part part
  | inside {template inner : Template} (member : inner ∈ template.parts)
    (within : Occurs part inner) : Occurs part template

/-- The type parameter or the array rank that the template names itself, without its parts, is there.
-/
def Provided (typars : Nat) : Template → Prop
  | .param index => index < typars
  | .array rank _ => 1 ≤ rank ∧ rank ≤ maxArrayRank
  | .prim _ => True
  | .app .. => True
  | .fn .. => True
  | .tuple _ => True

theorem closedAll_iff :
    closedAll typars templates = true ↔ ∀ template ∈ templates, closed typars template = true := by
  induction templates with
  | nil => exact iff_of_true rfl nofun
  | cons template rest ih => rw [closedAll, Bool.and_eq_true, ih, List.forall_mem_cons]

theorem closed_iff_parts : closed typars template = true ↔
    template.Provided typars ∧ ∀ inner ∈ template.parts, closed typars inner = true := by
  cases template <;> simp [closed, Provided, parts, closedAll_iff]

theorem closed_iff : closed typars template = true ↔
    ∀ part : Template, part.Occurs template → part.Provided typars := by
  induction template using induction with
  | node template ih =>
      rw [closed_iff_parts]
      constructor
      · rintro ⟨own, inside⟩ part occurs
        cases occurs with
        | here => exact own
        | inside member within => exact (ih _ member).mp (inside _ member) part within
      · intro each
        refine ⟨each _ .here, fun inner member => (ih inner member).mpr fun part within => ?_⟩
        exact each part (.inside member within)

/-- What a template becomes over type parameters, node by node. -/
inductive Becomes (tycons : WellKnownTycons) (prims : PrimitiveTypes) (params : List TyParam) :
    Template → Ty → Prop where
  | prim (kind : PrimitiveKind) : Becomes tycons prims params (.prim kind) (prims.get kind)
  | param {node : NodeId} {index : Nat} {param : TyParam} (found : params[index]? = some param) :
    Becomes tycons prims params (.param index) (.var node param)
  | app {node : NodeId} {tycon : NamedTycon} {args : List Template} {tys : List Ty}
    (parts : List.Forall₂ (Becomes tycons prims params) args tys) :
    Becomes tycons prims params (.app tycon args) (.app node (tycons.get tycon) tys .ambivalent)
  | array {node : NodeId} {rank : Nat} {tycon : TyconRef} {elem : Template} {ty : Ty}
    (ranked : tycons.array rank = .ok tycon) (part : Becomes tycons prims params elem ty) :
    Becomes tycons prims params (.array rank elem) (.app node tycon [ty] .withoutNull)
  | fn {node : NodeId} {domain range : Template} {left right : Ty}
    (ofDomain : Becomes tycons prims params domain left)
    (ofRange : Becomes tycons prims params range right) :
    Becomes tycons prims params (.fn domain range) (.fn node left right .withoutNull)
  | tuple {node : NodeId} {elems : List Template} {tys : List Ty}
    (parts : List.Forall₂ (Becomes tycons prims params) elems tys) :
    Becomes tycons prims params (.tuple elems) (.tuple node .reference tys)

section Becomes

variable {tycons : WellKnownTycons} {prims : PrimitiveTypes} {params : List TyParam}
  {tys others : List Ty} {ty other : Ty} {groups : List (List Template)}
  {made again : List (List Ty)}

theorem shapes_eq_of_becomes
    (each : ∀ inner ∈ templates, ∀ {ty other : Ty}, inner.Becomes tycons prims params ty →
      inner.Becomes tycons prims params other → ty.Alike other)
    (first : List.Forall₂ (Becomes tycons prims params) templates tys)
    (second : List.Forall₂ (Becomes tycons prims params) templates others) :
    Ty.shapes tys = Ty.shapes others := by
  induction first generalizing others with
  | nil =>
      cases second
      rfl
  | cons head _ ih =>
      cases second with
      | cons again rest =>
          rw [List.forall_mem_cons] at each
          have same := each.1 head again
          rw [Ty.Alike] at same
          rw [Ty.shapes, Ty.shapes, same, ih each.2 rest]

theorem Becomes.alike (first : template.Becomes tycons prims params ty)
    (second : template.Becomes tycons prims params other) : ty.Alike other := by
  induction template using induction generalizing ty other with
  | node template ih =>
      cases first with
      | prim kind =>
          cases second
          rfl
      | param found =>
          cases second with
          | param again => rw [Option.some.inj (found.symm.trans again), Ty.Alike, Ty.shape, Ty.shape]
      | app parts =>
          cases second with
          | app again => rw [Ty.Alike, Ty.shape, Ty.shape, shapes_eq_of_becomes ih parts again]
      | array ranked part =>
          cases second with
          | array rankedToo again =>
              have same := ih _ (List.mem_singleton_self _) part again
              rw [Ty.Alike] at same
              simp only [Ty.Alike, Ty.shape, Ty.shapes, same,
                Except.ok.inj (ranked.symm.trans rankedToo)]
      | fn ofDomain ofRange =>
          cases second with
          | fn domainAgain rangeAgain =>
              have left := ih _ List.mem_cons_self ofDomain domainAgain
              have right := ih _ (List.mem_cons_of_mem _ List.mem_cons_self) ofRange rangeAgain
              rw [Ty.Alike] at left right
              rw [Ty.Alike, Ty.shape, Ty.shape, left, right]
      | tuple parts =>
          cases second with
          | tuple again => rw [Ty.Alike, Ty.shape, Ty.shape, shapes_eq_of_becomes ih parts again]

theorem map_shapes_eq_of_becomes
    (first : List.Forall₂ (List.Forall₂ (Becomes tycons prims params)) groups made)
    (second : List.Forall₂ (List.Forall₂ (Becomes tycons prims params)) groups again) :
    made.map Ty.shapes = again.map Ty.shapes := by
  induction first generalizing again with
  | nil =>
      cases second
      rfl
  | cons head _ ih =>
      cases second with
      | cons headToo rest =>
          rw [List.map_cons, List.map_cons, ih rest,
            shapes_eq_of_becomes (fun _ _ => Becomes.alike) head headToo]

theorem Becomes.provided (becomes : template.Becomes tycons prims params ty) :
    template.Provided params.length := by
  cases becomes with
  | param found => exact (List.getElem?_eq_some_iff.mp found).1
  | array ranked part =>
      rw [WellKnownTycons.array] at ranked
      split at ranked
      case isTrue bounds => exact bounds
      case isFalse => cases ranked
  | prim kind => trivial
  | app parts => trivial
  | fn ofDomain ofRange => trivial
  | tuple parts => trivial

/-- The parts become types too, and a type parameter that is not the template itself is of theirs. -/
theorem Becomes.exists_parts (becomes : template.Becomes tycons prims params ty) :
    ∃ tys, List.Forall₂ (Becomes tycons prims params) template.parts tys ∧
      ∀ param ∈ ty.params, param ∈ params ∨ param ∈ tys.flatMap Ty.params := by
  cases becomes with
  | prim kind => exact ⟨[], .nil, List.forall_mem_nil _⟩
  | param found =>
      refine ⟨[], .nil, fun param member => Or.inl ?_⟩
      rw [List.mem_singleton.mp member]
      exact List.mem_of_getElem? found
  | app parts => exact ⟨_, parts, fun param member => Or.inr (Ty.params_app ▸ member)⟩
  | array ranked part =>
      exact ⟨_, .cons part .nil, fun param member => Or.inr (Ty.params_app ▸ member)⟩
  | fn ofDomain ofRange =>
      refine ⟨_, .cons ofDomain (.cons ofRange .nil), fun param member => Or.inr ?_⟩
      rwa [List.flatMap_cons, List.flatMap_singleton]
  | tuple parts => exact ⟨_, parts, fun param member => Or.inr (Ty.params_tuple ▸ member)⟩

theorem Becomes.closed (becomes : template.Becomes tycons prims params ty) :
    closed params.length template = true := by
  induction template using induction generalizing ty with
  | node template ih =>
      obtain ⟨tys, parts, _⟩ := becomes.exists_parts
      refine closed_iff_parts.mpr ⟨becomes.provided, fun inner member => ?_⟩
      obtain ⟨image, _, inside⟩ := exists_related parts member
      exact ih inner member inside

theorem Becomes.mem_params (becomes : template.Becomes tycons prims params ty) :
    ∀ param ∈ ty.params, param ∈ params := by
  induction template using induction generalizing ty with
  | node template ih =>
      intro param member
      obtain ⟨tys, parts, origin⟩ := becomes.exists_parts
      rcases origin param member with own | inside
      · exact own
      · obtain ⟨image, listed, within⟩ := List.mem_flatMap.mp inside
        obtain ⟨inner, source, part⟩ := exists_related parts.flip listed
        exact ih inner source part param within

theorem map_length_eq_of_becomes
    (related : List.Forall₂ (List.Forall₂ (Becomes tycons prims params)) groups made) :
    groups.map List.length = made.map List.length := by
  rw [← List.forall₂_eq_eq_eq, List.forall₂_map_left_iff, List.forall₂_map_right_iff]
  exact related.imp fun _ _ parts => parts.length_eq

theorem closed_of_becomes
    (related : List.Forall₂ (List.Forall₂ (Becomes tycons prims params)) groups made) :
    groups.all (closedAll params.length) = true := by
  rw [List.all_eq_true]
  intro group listed
  obtain ⟨tys, _, parts⟩ := exists_related related listed
  rw [closedAll_iff]
  intro template member
  obtain ⟨ty, _, becomes⟩ := exists_related parts member
  exact becomes.closed

theorem mem_params_of_becomes
    (related : List.Forall₂ (List.Forall₂ (Becomes tycons prims params)) groups made) :
    ∀ ty ∈ made.flatten, ∀ param ∈ ty.params, param ∈ params := by
  intro ty listed
  obtain ⟨tys, grouped, member⟩ := List.mem_flatten.mp listed
  obtain ⟨group, _, parts⟩ := exists_related related.flip grouped
  obtain ⟨template, _, becomes⟩ := exists_related parts.flip member
  exact becomes.mem_params

end Becomes

end Template

namespace Signature

variable {typars : Nat} {signature : Signature}

def Has (signature : Signature) (part : Template) : Prop :=
  (∃ group ∈ signature.args, ∃ arg ∈ group, part.Occurs arg) ∨ part.Occurs signature.ret

/-- Some template asks for a type parameter past the last, or for an array rank that does not exist. -/
def Faulty (signature : Signature) (typars : Nat) : Prop :=
  (∃ index, signature.Has (.param index) ∧ typars ≤ index) ∨
    ∃ rank elem, signature.Has (.array rank elem) ∧ ¬ (1 ≤ rank ∧ rank ≤ maxArrayRank)

theorem closed_iff :
    signature.closed typars = true ↔
      ∀ part : Template, signature.Has part → part.Provided typars := by
  simp only [closed, Bool.and_eq_true, List.all_eq_true, Template.closedAll_iff,
    Template.closed_iff, Has]
  constructor
  · rintro ⟨args, ret⟩ part (⟨group, listed, arg, member, occurs⟩ | occurs)
    · exact args group listed arg member part occurs
    · exact ret part occurs
  · intro each
    refine ⟨?_, fun part occurs => each part (Or.inr occurs)⟩
    intro group listed arg member part occurs
    exact each part (Or.inl ⟨group, listed, arg, member, occurs⟩)

theorem faulty_iff : signature.Faulty typars ↔ ¬ signature.closed typars = true := by
  rw [closed_iff, Faulty]
  constructor
  · rintro (⟨index, has, past⟩ | ⟨rank, elem, has, outside⟩) provided
    · exact Nat.not_lt_of_le past (provided _ has)
    · exact outside (provided _ has)
  · intro missing
    obtain ⟨part, has, absent⟩ : ∃ part, signature.Has part ∧ ¬ part.Provided typars := by
      simpa only [not_forall, exists_prop] using missing
    cases part with
    | param index => exact Or.inl ⟨index, has, Nat.le_of_not_lt absent⟩
    | array rank elem => exact Or.inr ⟨rank, elem, has, absent⟩
    | prim kind => exact absurd trivial absent
    | app tycon args => exact absurd trivial absent
    | fn domain range => exact absurd trivial absent
    | tuple elems => exact absurd trivial absent

end Signature

namespace TemplateContext

variable {context : TemplateContext} {node : NodeId} {template : Template} {ty : Ty}
  {templates : List Template} {tys : List Ty} {groups : List (List Template)}
  {made : List (List Ty)}

theorem instantiateAll_eq_mapM (templates : List Template) :
    context.instantiateAll node templates = templates.mapM (context.instantiate node) := by
  induction templates with
  | nil => rfl
  | cons template rest ih => rw [instantiateAll, ih, List.mapM_cons]

theorem instantiateGroups_eq_mapM (groups : List (List Template)) :
    context.instantiateGroups node groups = groups.mapM (context.instantiateAll node) := by
  induction groups with
  | nil => rfl
  | cons group rest ih => rw [instantiateGroups, ih, List.mapM_cons]

theorem forall₂_instantiateAll (success : context.instantiateAll node templates = .ok tys) :
    List.Forall₂ (fun template ty => context.instantiate node template = .ok ty) templates tys :=
  forall₂_of_mapM (instantiateAll_eq_mapM templates ▸ success)

theorem forall₂_instantiateGroups (success : context.instantiateGroups node groups = .ok made) :
    List.Forall₂ (fun group tys => context.instantiateAll node group = .ok tys) groups made :=
  forall₂_of_mapM (instantiateGroups_eq_mapM groups ▸ success)

section Becomes

variable {tycons : WellKnownTycons} {prims : PrimitiveTypes} {params : List TyParam}

theorem forall₂_becomes
    (each : ∀ inner ∈ templates, ∀ image, context.instantiate node inner = .ok image →
      inner.Becomes tycons prims params image)
    (success : context.instantiateAll node templates = .ok tys) :
    List.Forall₂ (Template.Becomes tycons prims params) templates tys := by
  have both := (List.forall₂_and_left templates tys).mpr ⟨each, forall₂_instantiateAll success⟩
  exact both.imp fun inner image made => made.1 image made.2

theorem becomes_of_instantiate
    (success : instantiate ⟨tycons, prims, params.map (.var node)⟩ node template = .ok ty) :
    template.Becomes tycons prims params ty := by
  induction template using Template.induction generalizing ty with
  | node template ih =>
      cases template with
      | prim kind =>
          cases success
          exact .prim kind
      | param index =>
          rw [instantiate, List.getElem?_map] at success
          cases found : params[index]? with
          | none => simp [found] at success
          | some param =>
              simp only [found, Option.map_some, Except.ok.injEq] at success
              exact success ▸ .param found
      | app tycon args =>
          rcases exists_of_bind success with ⟨tys, parts, whole⟩
          cases whole
          exact .app (forall₂_becomes (fun inner member _ => ih inner member) parts)
      | array rank elem =>
          rcases exists_of_bind success with ⟨tycon, ranked, inner⟩
          rcases exists_of_bind inner with ⟨image, part, whole⟩
          cases whole
          exact .array ranked (ih elem (List.mem_singleton_self elem) part)
      | fn domain range =>
          rcases exists_of_bind success with ⟨left, ofDomain, inner⟩
          rcases exists_of_bind inner with ⟨right, ofRange, whole⟩
          cases whole
          exact .fn (ih domain List.mem_cons_self ofDomain)
            (ih range (List.mem_cons_of_mem domain (List.mem_singleton_self range)) ofRange)
      | tuple elems =>
          rcases exists_of_bind success with ⟨tys, parts, whole⟩
          cases whole
          exact .tuple (forall₂_becomes (fun inner member _ => ih inner member) parts)

theorem becomes_of_instantiateGroups
    (success : instantiateGroups ⟨tycons, prims, params.map (.var node)⟩ node groups = .ok made) :
    List.Forall₂ (List.Forall₂ (Template.Becomes tycons prims params)) groups made :=
  (forall₂_instantiateGroups success).imp fun _ _ parts =>
    forall₂_becomes (fun _ _ _ => becomes_of_instantiate) parts

end Becomes

theorem params_groupDomain (group : List Ty) :
    (context.groupDomain node group).params = group.flatMap Ty.params := by
  match group with
  | [] => rfl
  | [arg] => exact (List.flatMap_singleton ..).symm
  | first :: second :: rest => exact Ty.params_tuple

theorem params_curriedTy (made : List (List Ty)) (ret : Ty) :
    (context.curriedTy node made ret).params = made.flatten.flatMap Ty.params ++ ret.params := by
  induction made with
  | nil => rfl
  | cons group rest ih =>
      rw [curriedTy, List.foldr_cons, ← curriedTy, Ty.params_fn, params_groupDomain, ih,
        List.flatten_cons, List.flatMap_append, List.append_assoc]

end TemplateContext

inductive PrimitiveTypes.GroupDomain (prims : PrimitiveTypes) : List Ty → Ty → Prop where
  | empty : GroupDomain prims [] (prims.get .unit)
  | single {arg : Ty} : GroupDomain prims [arg] arg
  | several {node : NodeId} {args : List Ty} (more : 2 ≤ args.length) :
    GroupDomain prims args (.tuple node .reference args)

inductive PrimitiveTypes.Curried (prims : PrimitiveTypes) : List (List Ty) → Ty → Ty → Prop where
  | result {ret : Ty} : Curried prims [] ret ret
  | takes {node : NodeId} {group : List Ty} {groups : List (List Ty)} {domain range ret : Ty}
    (ofGroup : prims.GroupDomain group domain) (rest : Curried prims groups ret range) :
    Curried prims (group :: groups) ret (.fn node domain range .withoutNull)

namespace PrimitiveTypes

variable {prims : PrimitiveTypes} {group other : List Ty} {groups others : List (List Ty)}
  {domain image ret result whole ty : Ty}

theorem GroupDomain.alike (first : prims.GroupDomain group domain)
    (second : prims.GroupDomain other image) (same : Ty.shapes group = Ty.shapes other) :
    domain.Alike image := by
  have lengths : group.length = other.length := by
    simpa [Ty.shapes_eq_map] using congrArg List.length same
  cases first with
  | empty =>
      cases second with
      | empty => rfl
      | single => cases lengths
      | several more => simp [← lengths] at more
  | single =>
      cases second with
      | empty => cases lengths
      | single => exact (List.cons.inj same).1
      | several more => simp [← lengths] at more
  | several more =>
      cases second with
      | empty => simp [lengths] at more
      | single => simp [lengths] at more
      | several => rw [Ty.Alike, Ty.shape, Ty.shape, same]

theorem Curried.alike (first : prims.Curried groups ret whole)
    (second : prims.Curried others result ty) (same : groups.map Ty.shapes = others.map Ty.shapes)
    (ends : ret.Alike result) : whole.Alike ty := by
  induction first generalizing others ty with
  | result =>
      cases second with
      | result => exact ends
      | takes => cases same
  | takes ofGroup _ ih =>
      cases second with
      | result => cases same
      | takes groupToo rest =>
          rw [List.map_cons, List.map_cons, List.cons.injEq] at same
          have left := ofGroup.alike groupToo same.1
          have right := ih rest same.2 ends
          rw [Ty.Alike] at left right
          rw [Ty.Alike, Ty.shape, Ty.shape, left, right]

end PrimitiveTypes

theorem TemplateContext.curried_curriedTy (context : TemplateContext) (node : NodeId)
    (made : List (List Ty)) (ret : Ty) :
    context.prims.Curried made ret (context.curriedTy node made ret) := by
  induction made with
  | nil => exact .result
  | cons group rest ih =>
      refine .takes ?_ ih
      match group with
      | [] => exact .empty
      | [arg] => exact .single
      | first :: second :: others => exact .several (by simp)

end TypeEnv
