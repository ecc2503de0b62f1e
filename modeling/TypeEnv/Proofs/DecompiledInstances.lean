import TypeEnv.Proofs.NormalForms
import TypeEnv.Proofs.Substitution

/-!
Decompiling types and putting types in for their type parameters. What is put in is decompiled
already, so it has nothing of its own to decompile. But a source tuple that is put in as the eighth
and last argument of a nominal tuple continues that tuple, and a type parameter there does not.
Everywhere else it makes no difference which of the two comes first.
-/

namespace TypeEnv

def Ty.isParamBelow (count : Nat) : Ty → Bool
  | .var _ param => param.index < count
  | _ => false

namespace TupleTycons

variable {tuples : TupleTycons} {kind : TupleKind} {count : Nat} {node : NodeId}
  {tycon : TyconRef} {args : List Ty} {nullness : Nullness}

/-- Whether the type is a nominal tuple of eight arguments, the last of which is a type parameter at
one of the first positions. -/
def endsInParam (tuples : TupleTycons) (count : Nat) : Ty → Bool
  | .app _ tycon args _ =>
    tuples.isTuple tycon && args.length = maxTuple && args.getLast?.any (Ty.isParamBelow count)
  | _ => false

/-- A map that keeps what the images of arguments add goes through the elements of the images. Nothing
is asked of a type parameter at one of the first positions, as it is no eighth and last argument. -/
theorem map_elements_of_closed {first map : Ty → Ty} (isTuple : tuples.isTuple tycon = true)
    (closed : tuples.endsInParam count (.app node tycon args nullness) = false)
    (slot : ∀ arg ∈ args, arg.isParamBelow count = false →
      (tuples.continuation kind (first arg)).map (List.map map) =
        tuples.continuation kind (map (first arg))) :
    (tuples.elements kind (args.map first)).map (List.map map) =
      tuples.elements kind ((args.map first).map map) := by
  apply map_elements_of_slot
  intro front back length whole
  obtain ⟨seven, ends, rfl, rfl, single⟩ := List.map_eq_append_iff.mp whole
  obtain ⟨last, rfl, rfl⟩ := List.map_eq_singleton_iff.mp single
  rw [List.length_map] at length
  have apart : last.isParamBelow count = false := by
    simpa [endsInParam, isTuple, length, maxTuple] using closed
  exact slot last (List.mem_append_right _ List.mem_cons_self) apart

end TupleTycons

namespace DecompileRules

variable {rules : DecompileRules} {tuples : TupleTycons} {store : UnitStore} {kind : TupleKind}
  {images args : List Ty} {tycon : TyconRef} {nullness : Nullness} {ty formed : Ty}

theorem map_subst_continuation_formed
    (found : rules.decompileApp? tuples store 0 tycon args nullness = some formed) :
    (tuples.continuation kind formed).map (List.map (Ty.subst 0 images)) =
      tuples.continuation kind (Ty.subst 0 images formed) := by
  simp only [decompileApp?] at found
  split at found
  case h_1 => cases found
  case h_2 =>
    cases found
    rw [Ty.subst_fn]
    rfl
  case h_3 => cases found
  case h_4 =>
    obtain ⟨flat, _, rfl⟩ := Option.map_eq_some_iff.mp found
    rw [Ty.subst_tuple]
    exact TupleTycons.map_continuation_tuple ..

/-- Putting types in goes through what a decompiled type adds as an eighth argument, unless that type
is itself a type parameter that is replaced. -/
theorem map_subst_continuation (closed : ty.anyNode (tuples.endsInParam images.length) = false)
    (apart : ty.isParamBelow images.length = false) :
    (tuples.continuation kind (rules.decompile tuples store 0 ty.bare)).map
        (List.map (Ty.subst 0 images)) =
      tuples.continuation kind (Ty.subst 0 images (rules.decompile tuples store 0 ty.bare)) := by
  induction ty using Ty.induction with
  | app node tycon args nullness ih =>
      obtain ⟨here, parts⟩ := Ty.anyNode_eq_false_iff.mp closed
      rw [Ty.bare, Ty.bares_eq_map, rules.decompile_app, List.map_map]
      cases found : rules.decompileApp? tuples store 0 tycon
          (args.map (rules.decompile tuples store 0 ∘ Ty.bare)) nullness with
      | some formed => exact map_subst_continuation_formed found
      | none =>
          -- Without a rule, or with too few arguments, the constructor may still be a tuple's.
          rw [Option.getD_none, Ty.subst_app]
          apply TupleTycons.map_continuation_app
          intro isTuple
          apply TupleTycons.map_elements_of_closed isTuple here
          exact fun arg member => ih arg member (parts arg member)
  | fn node domain range nullness =>
      rw [Ty.bare, rules.decompile_fn, Ty.subst_fn]
      rfl
  | tuple node other elems =>
      rw [Ty.bare, Ty.bares_eq_map, rules.decompile_tuple, Ty.subst_tuple]
      exact TupleTycons.map_continuation_tuple ..
  | var node param =>
      have beyond : images[param.index]? = none := by
        simpa [Ty.isParamBelow] using apart
      change none = tuples.continuation kind (Ty.subst 0 images (.var 0 param))
      rw [Ty.subst_var, beyond]
      rfl

theorem map_subst_decompileApp? {node : NodeId}
    (ruled : ∀ kind, rules.rule? store tycon = some (.tuple kind) → tuples.isTuple tycon = true)
    (closed : (Ty.app node tycon args nullness).anyNode (tuples.endsInParam images.length) = false) :
    (rules.decompileApp? tuples store 0 tycon (args.map (rules.decompile tuples store 0 ∘ Ty.bare))
        nullness).map (Ty.subst 0 images) =
      rules.decompileApp? tuples store 0 tycon
        ((args.map (rules.decompile tuples store 0 ∘ Ty.bare)).map (Ty.subst 0 images))
        nullness := by
  obtain ⟨here, closedParts⟩ := Ty.anyNode_eq_false_iff.mp closed
  apply map_decompileApp?
  case function => exact fun domain range => Ty.subst_fn images 0 domain range nullness
  case source => exact Ty.subst_tuple images 0
  case kept =>
    intro kind found
    apply TupleTycons.map_elements_of_closed (ruled kind found) here
    exact fun arg member => map_subst_continuation (closedParts arg member)

theorem decompile_subst_bare
    (decompiled : ∀ image ∈ images, rules.decompile tuples store 0 image = image)
    (ruled : ty.EachApp fun tycon _ => ∀ kind, rules.rule? store tycon = some (.tuple kind) →
      tuples.isTuple tycon = true)
    (closed : ty.anyNode (tuples.endsInParam images.length) = false) :
    rules.decompile tuples store 0 (Ty.subst 0 images ty.bare) =
      Ty.subst 0 images (rules.decompile tuples store 0 ty.bare) := by
  induction ruled with
  | app node tycon args nullness here _ ih =>
      have closedParts := (Ty.anyNode_eq_false_iff.mp closed).2
      have parts : ∀ arg ∈ args.map Ty.bare,
          rules.decompile tuples store 0 (Ty.subst 0 images arg) =
            Ty.subst 0 images (rules.decompile tuples store 0 arg) :=
        List.forall_mem_map.mpr fun arg member => ih arg member (closedParts arg member)
      have form := map_subst_decompileApp? here closed
      rw [← List.map_map] at form
      rw [Ty.bare, Ty.bares_eq_map, Ty.subst_app, rules.decompile_app, rules.decompile_app,
        Ty.map_map_congr parts, ← form, ← Ty.subst_app]
      exact Option.getD_map ..
  | fn node domain range nullness _ _ ihDomain ihRange =>
      have closedParts := (Ty.anyNode_eq_false_iff.mp closed).2
      have left := ihDomain (closedParts domain List.mem_cons_self)
      have right := ihRange (closedParts range (List.mem_cons_of_mem _ List.mem_cons_self))
      rw [Ty.bare, Ty.subst_fn, rules.decompile_fn, rules.decompile_fn, Ty.subst_fn, left, right]
  | tuple node kind elems _ ih =>
      have closedParts := (Ty.anyNode_eq_false_iff.mp closed).2
      have parts : ∀ elem ∈ elems.map Ty.bare,
          rules.decompile tuples store 0 (Ty.subst 0 images elem) =
            Ty.subst 0 images (rules.decompile tuples store 0 elem) :=
        List.forall_mem_map.mpr fun elem member => ih elem member (closedParts elem member)
      rw [Ty.bare, Ty.bares_eq_map, Ty.subst_tuple, rules.decompile_tuple, rules.decompile_tuple,
        Ty.subst_tuple, Ty.map_map_congr parts]
  | var node param =>
      change rules.decompile tuples store 0 (Ty.subst 0 images (.var 0 param)) =
        Ty.subst 0 images (.var 0 param)
      rw [Ty.subst_var]
      cases put : images[param.index]? with
      | none => rfl
      | some image => exact decompiled image (List.mem_of_getElem? put)

end DecompileRules

namespace Session

variable {start session : Session} {images : List Ty} {ty : Ty}

def decompileInstance (images : List Ty) (ty : Ty) : SessionM Ty := do
  decompileTy (← subst images ty)

def instantiateDecompiled (images : List Ty) (ty : Ty) : SessionM Ty := do
  subst images (← decompileTy ty)

theorem decompileInstance_served (session : Session) (images : List Ty) (ty : Ty) :
    ∃ next, decompileInstance images ty session =
      .ok (session.tookNode.decompiled (Ty.subst session.nextNode images ty)) next :=
  ⟨_, decompileTy_served session.tookNode (Ty.subst session.nextNode images ty)⟩

theorem instantiateDecompiled_served (session : Session) (images : List Ty) (ty : Ty) :
    ∃ node next, instantiateDecompiled images ty session =
      .ok (Ty.subst node images (session.decompiled ty)) next := by
  simp only [instantiateDecompiled, bind, EStateM.bind, decompileTy_served]
  exact ⟨_, _, rfl⟩

theorem decompiled_of_served
    (canonical : ∃ result next, decompileTy ty session = .ok result next ∧ result.Alike ty) :
    session.decompileRulesNow.Decompiled session.units ty := by
  obtain ⟨result, next, served, alike⟩ := canonical
  rw [decompileTy_served] at served
  cases served
  exact .of_alike alike

/-- Decompiling commutes with putting in types that are decompiled already, unless one of the type
parameters that they replace is the eighth and last argument of a nominal tuple. -/
theorem decompile_subst (created : start.Created) (run : Run start session)
    (held : ty.Held session.units)
    (canonical : ∀ image ∈ images, ∃ result next,
      decompileTy image session = .ok result next ∧ result.Alike image)
    (closed : ty.anyNode (session.tycons.tuples.endsInParam images.length) = false) :
    ∃ first second next other, decompileInstance images ty session = .ok first next ∧
      instantiateDecompiled images ty session = .ok second other ∧ first.Alike second := by
  obtain ⟨next, first⟩ := decompileInstance_served session images ty
  obtain ⟨node, other, second⟩ := instantiateDecompiled_served session images ty
  refine ⟨_, _, next, other, first, second, ?_⟩
  have ruled : ty.EachApp fun tycon _ => ∀ kind,
      session.decompileRulesNow.rule? session.units tycon = some (.tuple kind) →
        session.tycons.tuples.isTuple tycon = true := by
    obtain ⟨units, use⟩ := exists_firstUse Request.usesDecompile run
    apply held.weaken
    intro tycon _ heldTycon kind found
    obtain ⟨arity, classified⟩ := created.fresh.classify_of_rule? use heldTycon found
    exact TupleTycons.isTuple_of_classify classified
  have decompiled : ∀ image ∈ images.map Ty.bare,
      session.decompileRulesNow.decompile session.tycons.tuples session.units 0 image = image := by
    rw [List.forall_mem_map]
    intro image member
    rw [← DecompileRules.bare_decompile 0, (decompiled_of_served (canonical image member)).decompile]
  apply Ty.alike_of_bare
  calc
    (session.tookNode.decompiled (Ty.subst session.nextNode images ty)).bare =
        session.decompileRulesNow.decompile session.tycons.tuples session.units 0
          (Ty.subst 0 (images.map Ty.bare) ty.bare) := by
      rw [(keepsUnits_tookNode session).bare_decompiled, Ty.bare_subst]
    _ = Ty.subst 0 (images.map Ty.bare)
          (session.decompileRulesNow.decompile session.tycons.tuples session.units 0 ty.bare) := by
      apply DecompileRules.decompile_subst_bare decompiled ruled
      rwa [List.length_map]
    _ = (Ty.subst node images (session.decompiled ty)).bare := by
      rw [Ty.bare_subst, (KeepsUnits.refl session).bare_decompiled]

/-- A nominal tuple of eight arguments whose last one is the nominal pair of two type parameters, the
first of which a source pair is put in for. -/
theorem decompile_subst_nested :
    ∃ (start session : Session) (first second image ty : Ty), start.Created ∧
      Run start session ∧
      (∀ kind place, ((session.tycons.tuples.family kind).get place).canDeref session.units) ∧
      first = .var 1 ⟨.empty, 0⟩ ∧ second = .var 2 ⟨.empty, 1⟩ ∧
      image = .tuple 3 .reference [first, second] ∧
      ty = .app 4 ((session.tycons.tuples.family .reference).get 7)
        [first, first, first, first, first, first, first,
          .app 5 ((session.tycons.tuples.family .reference).get 1) [first, second] .withoutNull]
        .withoutNull ∧
      ∃ decompiled instantiated next other,
        decompileInstance [image] ty session = .ok decompiled next ∧
        instantiateDecompiled [image] ty session = .ok instantiated other ∧
        decompiled.Alike instantiated := by
  obtain ⟨start, session, created, use, defined, _⟩ := exists_tuples_defined
  have located := created.fresh.located_run use.run
  let first : Ty := .var 1 ⟨.empty, 0⟩
  let second : Ty := .var 2 ⟨.empty, 1⟩
  let image : Ty := .tuple 3 .reference [first, second]
  let pair : Ty := .app 5 ((session.tycons.tuples.family .reference).get 1) [first, second]
    .withoutNull
  let ty : Ty := .app 4 ((session.tycons.tuples.family .reference).get 7)
    [first, first, first, first, first, first, first, pair] .withoutNull
  have tuples : ∀ place,
      ((session.tycons.tuples.family .reference).get place).Held session.units :=
    fun place => (located.tuples .reference place).toLookedUp.held session.units
  have heldFirst : first.Held session.units := .var _ _
  have heldSecond : second.Held session.units := .var _ _
  have inner : pair.Held session.units :=
    .app _ _ _ _ (tuples 1) (by simpa using ⟨heldFirst, heldSecond⟩)
  have held : ty.Held session.units :=
    .app _ _ _ _ (tuples 7) (by simpa using ⟨heldFirst, inner⟩)
  have canonical : ∀ put ∈ [image], ∃ result next,
      decompileTy put session = .ok result next ∧ result.Alike put := by
    intro put member
    rw [List.mem_singleton.mp member]
    exact ⟨image, session, decompileTy_of_not_applies session (by decide), rfl⟩
  have closed : ty.anyNode (session.tycons.tuples.endsInParam [image].length) = false := by
    simp [ty, pair, first, second, Ty.anyNode, Ty.anyNodes, TupleTycons.endsInParam,
      Ty.isParamBelow, maxTuple]
  exact ⟨start, session, first, second, image, ty, created, use.run, defined, rfl, rfl, rfl, rfl,
    decompile_subst created use.run held canonical closed⟩

end Session

end TypeEnv
