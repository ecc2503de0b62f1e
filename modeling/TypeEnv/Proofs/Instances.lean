import TypeEnv.Proofs.RegisteredTypes
import TypeEnv.Proofs.Substitution

/-!
Instances of templates. A template instantiated with types is the template instantiated with type
variables, into which the types were put. Two instances under one set of names are what the templates
become over the same type parameters; and as what was interned keeps its name, an intrinsic that is
made again is the one that the session holds.
-/

namespace TypeEnv

namespace TemplateContext

variable {context : TemplateContext} {params : List TyParam} {images : List Ty}
  {template : Template} {group : List Template}

def general (context : TemplateContext) (params : List TyParam) (node : NodeId) : TemplateContext :=
  context.withTypars (params.map (.var node))

theorem general_opens (placed : params.map TyParam.index = List.range images.length)
    (node old : NodeId) : (context.general params old).Opens node images := by
  have length := TyParam.length_of_placed placed
  exact opens_vars (length ▸ placed) length.symm

theorem length_general (placed : params.map TyParam.index = List.range images.length)
    (node : NodeId) : (context.general params node).typars.length = images.length := by
  have length := TyParam.length_of_placed placed
  simp only [general, withTypars, List.length_map, length]

/-- Where all that occurs in the templates is there, both ways come to an end, and at one type each. -/
theorem exists_group_instances (context : TemplateContext)
    (placed : params.map TyParam.index = List.range images.length)
    (closed : Template.closedAll images.length group = true) (node old new : NodeId) :
    ∃ first second, (context.general params old).instantiateAll old group = .ok first ∧
      (context.withTypars images).instantiateAll new group = .ok second ∧
      first.map (fun ty => (Ty.subst node images ty).bare) = second.map Ty.bare := by
  rw [← length_general placed old] at closed
  obtain ⟨first, made⟩ := exists_instantiateAll old group closed
  obtain ⟨second, put, same⟩ := subst_instantiateAll new (general_opens placed node old) group made
  exact ⟨first, second, made, put, same⟩

theorem exists_of_instantiateAll_singleton {node : NodeId} {tys : List Ty}
    (made : context.instantiateAll node [template] = .ok tys) :
    ∃ ty, context.instantiate node template = .ok ty ∧ tys = [ty] := by
  rcases exists_of_bind made with ⟨ty, first, inner⟩
  cases inner
  exact ⟨ty, first, rfl⟩

/-- A template is a group of its own. -/
theorem exists_instances (context : TemplateContext)
    (placed : params.map TyParam.index = List.range images.length)
    (closed : template.closed images.length = true) (node old new : NodeId) :
    ∃ first second, (context.general params old).instantiate old template = .ok first ∧
      (context.withTypars images).instantiate new template = .ok second ∧
      (Ty.subst node images first).bare = second.bare := by
  have alone : Template.closedAll images.length [template] = true := by
    simp only [Template.closedAll, closed, Bool.and_self]
  obtain ⟨firsts, seconds, made, put, same⟩ :=
    context.exists_group_instances placed alone node old new
  obtain ⟨first, madeFirst, rfl⟩ := exists_of_instantiateAll_singleton made
  obtain ⟨second, putSecond, rfl⟩ := exists_of_instantiateAll_singleton put
  exact ⟨first, second, madeFirst, putSecond, List.singleton_inj.mp same⟩

end TemplateContext

theorem IntrinsicSpec.alike_of_instantiate {spec : IntrinsicSpec} {names : IntrinsicNames}
    {tycons : WellKnownTycons} {prims : PrimitiveTypes} {interner : Interner} {old new : NodeId}
    {value other : Intrinsic} (spell : names.Spell spec interner)
    (first : spec.instantiate names tycons prims old = .ok value)
    (second : spec.instantiate names tycons prims new = .ok other) : other.Alike value := by
  have ofFirst := Intrinsic.MadeFrom.takesGroups ⟨names, old, spell, first⟩
  have ofSecond := Intrinsic.MadeFrom.takesGroups ⟨names, new, spell, second⟩
  rcases exists_of_bind first with ⟨groups, _, inner⟩
  rcases exists_of_bind inner with ⟨ret, _, whole⟩
  cases whole
  rcases exists_of_bind second with ⟨others, _, inner⟩
  rcases exists_of_bind inner with ⟨image, _, whole⟩
  cases whole
  -- Both are what the templates become over the type parameters with these names.
  have sameArgs := Template.map_shapes_eq_of_becomes ofSecond.args ofFirst.args
  have sameRet := ofSecond.ret.alike ofFirst.ret
  have sameTy := ofSecond.curried.alike ofFirst.curried sameArgs sameRet
  exact ⟨rfl, rfl, rfl, rfl, rfl, rfl, sameArgs, sameRet, sameTy, rfl, rfl⟩

namespace Session

variable {session : Session}

theorem exists_remake {id : IntrinsicId}
    (made : (session.intrinsic id).MadeFrom id.spec session.tycons session.prims
      session.interner) :
    ∃ value, remake id session = .ok value session.tookNode ∧
      value.Alike (session.intrinsic id) := by
  obtain ⟨names, node, spell, instantiated⟩ := made
  obtain ⟨value, remade⟩ : ∃ value,
      id.spec.instantiate names session.tycons session.prims session.nextNode = .ok value :=
    IntrinsicSpec.exists_instantiate id.closed_spec (TyParam.length_of_placed spell.placed)
  have served : remake id session = .ok value session.tookNode := by
    rw [remake, instantiate_eq, IntrinsicSpec.internNames_of_spell spell]
    simp only [remade]
    rfl
  exact ⟨value, served, IntrinsicSpec.alike_of_instantiate spell instantiated remade⟩

def context (session : Session) : TemplateContext := ⟨session.tycons, session.prims, []⟩

/-- Types put into the instance of a template over type variables give the instance over these types,
and so they do for the domain of an argument group. Whatever was asked of a session, an intrinsic that
is made again is the one that the session holds, and nothing is interned for it. -/
theorem instances_agree :
    (∀ (session : Session) (params : List TyParam) (images : List Ty) (template : Template)
      (old new : NodeId), params.map TyParam.index = List.range images.length →
      (∀ part : Template, part.Occurs template → part.Provided images.length) →
      ∃ first second result next,
        (session.context.general params old).instantiate old template = .ok first ∧
        (session.context.withTypars images).instantiate new template = .ok second ∧
        subst images first session = .ok result next ∧ result.Alike second) ∧
    (∀ (session : Session) (params : List TyParam) (images : List Ty) (group : List Template)
      (old new : NodeId), params.map TyParam.index = List.range images.length →
      (∀ template ∈ group, ∀ part : Template, part.Occurs template →
        part.Provided images.length) →
      ∃ first second result next,
        (session.context.general params old).instantiateAll old group = .ok first ∧
        (session.context.withTypars images).instantiateAll new group = .ok second ∧
        subst images ((session.context.general params old).groupDomain old first) session =
          .ok result next ∧
        result.Alike ((session.context.withTypars images).groupDomain new second)) ∧
    ∀ start session : Session, start.Created → Run start session → ∀ id,
      ∃ value next, remake id session = .ok value next ∧ value.Alike (session.intrinsic id) ∧
        next.interner = session.interner := by
  refine ⟨?single, ?grouped, ?remade⟩
  case single =>
    intro session params images template old new placed provided
    have closed := Template.closed_iff.mpr provided
    obtain ⟨first, second, made, put, same⟩ :=
      session.context.exists_instances placed closed session.nextNode old new
    exact ⟨first, second, _, _, made, put, rfl, Ty.alike_of_bare same⟩
  case grouped =>
    intro session params images group old new placed provided
    have closed : Template.closedAll images.length group = true :=
      Template.closedAll_iff.mpr fun template member =>
        Template.closed_iff.mpr (provided template member)
    obtain ⟨first, second, made, put, same⟩ :=
      session.context.exists_group_instances placed closed session.nextNode old new
    refine ⟨first, second, _, _, made, put, rfl, Ty.alike_of_bare ?_⟩
    exact TemplateContext.subst_groupDomain same
  case remade =>
    intro start session created run id
    obtain ⟨value, served, alike⟩ := exists_remake (created.fresh.intrinsic_made run id)
    exact ⟨value, session.tookNode, served, alike, rfl⟩

/-- A function type over an array and a tuple, where what is put in has the type parameter at the other
position; a group of two arguments; and `raise` in a session in which something was interned, defined
and registered. -/
theorem instances_agree_raise :
    ∃ (start session : Session) (requests : List Request) (left right : TyParam) (map : Ty),
      start.Created ∧ session = start.served requests ∧
      requests =
        [.intern "Raise",
          .define start.localUnit.id { path := .root, name := .empty, kind := .classType },
          .register { IntrinsicId.raise.spec with compiledName := "RaiseAgain" }] ∧
      left.index = 0 ∧ right.index = 1 ∧
      map = .fn 5 (.var 6 right) (session.prims.get .int32) .withoutNull ∧
      (∃ first second result next,
        (session.context.general [left, right] 1).instantiate 1
          (.fn (.array 32 .t) (.tuple [.u, .t])) = .ok first ∧
        (session.context.withTypars [map, .var 6 left]).instantiate 2
          (.fn (.array 32 .t) (.tuple [.u, .t])) = .ok second ∧
        subst [map, .var 6 left] first session = .ok result next ∧ result.Alike second) ∧
      (∃ first second result next,
        (session.context.general [left, right] 1).instantiateAll 1 [.u, .array 1 .t] = .ok first ∧
        (session.context.withTypars [map, .var 6 left]).instantiateAll 2 [.u, .array 1 .t] =
          .ok second ∧
        subst [map, .var 6 left] ((session.context.general [left, right] 1).groupDomain 1 first)
          session = .ok result next ∧
        result.Alike
          ((session.context.withTypars [map, .var 6 left]).groupDomain 2 second)) ∧
      ∃ value next, remake .raise session = .ok value next ∧
        value.Alike (session.intrinsic .raise) ∧ next.interner = session.interner := by
  have accepted : ({} : Config).validate = .ok () := rfl
  obtain ⟨start, created, _⟩ := exists_created accepted
  obtain ⟨single, grouped, remade⟩ := instances_agree
  refine ⟨start, _, _, ⟨.empty, 0⟩, ⟨.empty, 1⟩, _, created, rfl, rfl, rfl, rfl, rfl,
    ?single, ?grouped, ?remade⟩
  case single =>
    exact single _ [⟨.empty, 0⟩, ⟨.empty, 1⟩] _ _ 1 2 rfl (Template.closed_iff.mp rfl)
  case grouped =>
    apply grouped _ [⟨.empty, 0⟩, ⟨.empty, 1⟩] _ _ 1 2 rfl
    intro template member
    exact Template.closed_iff.mp (Template.closedAll_iff.mp rfl template member)
  case remade => exact remade start _ created (run_served _ start) .raise

end Session

end TypeEnv
