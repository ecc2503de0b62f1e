import TypeEnv.Proofs.CanonicalForms
import TypeEnv.Proofs.DeepDecoding

/-!
Normal forms and handles. A pass that replaces a node puts one in its place that is not alike, so a
result that is alike to the type it was made from was not touched anywhere: it is the type itself,
handle and all. What a pass leaves behind has nothing left to replace, however deep in the type it
stood before.
-/

namespace TypeEnv

namespace Ty

variable {qualifies settled : TyconRef → Nat → Prop} {step : Ty → Ty} {ty : Ty}

theorem eachApp_of_all (all : ∀ tycon count, qualifies tycon count) (ty : Ty) :
    ty.EachApp qualifies := by
  induction ty using Ty.induction with
  | app node tycon args nullness ih => exact .app _ _ _ _ (all tycon args.length) ih
  | fn node domain range nullness ihDomain ihRange => exact .fn _ _ _ _ ihDomain ihRange
  | tuple node kind elems ih => exact .tuple _ _ _ ih
  | var node param => exact .var _ _

theorem alike_of_shapes {map : Ty → Ty} {tys : List Ty} (same : shapes (tys.map map) = shapes tys) :
    ∀ ty ∈ tys, (map ty).Alike ty := by
  rw [shapes_eq_map, shapes_eq_map, List.map_map] at same
  exact List.map_inj_left.mp same

/-- Where the step makes of every application that is not settled something that is not alike, a
rewriting with an alike result has found settled applications only. -/
theorem EachApp.of_rewrite_alike (each : ty.EachApp qualifies)
    (keeps : ∀ node tycon args nullness, settled tycon args.length →
      step (.app node tycon args nullness) = .app node tycon args nullness)
    (moves : ∀ node tycon args nullness, qualifies tycon args.length →
      ¬ settled tycon args.length →
      ∀ old others, ¬ (step (.app node tycon args nullness)).Alike (.app old tycon others nullness))
    (others : ∀ ty : Ty, ty.isApp = false → step ty = ty) (node : NodeId)
    (alike : (rewrite node step ty).Alike ty) : ty.EachApp settled := by
  induction each with
  | app old tycon args nullness here _ ih =>
      obtain ⟨held, _, result⟩ := exists_rewrite_app step node old tycon args nullness
      rw [result] at alike
      rw [← args.length_map (rewrite node step)] at here
      by_cases done : settled tycon (args.map (rewrite node step)).length
      · rw [keeps held tycon _ nullness done, Alike, shape, shape, Shape.app.injEq] at alike
        rw [List.length_map] at done
        have parts := alike_of_shapes alike.2.1
        exact .app _ _ _ _ done fun arg member => ih arg member (parts arg member)
      · exact absurd alike (moves held tycon _ nullness here done old args)
  | fn old domain range nullness _ _ ihDomain ihRange =>
      obtain ⟨held, _, result⟩ := exists_rewrite_fn step node old domain range nullness
      rw [result, others _ rfl, Alike, shape, shape, Shape.fn.injEq] at alike
      exact .fn _ _ _ _ (ihDomain alike.1) (ihRange alike.2.1)
  | tuple old kind elems _ ih =>
      obtain ⟨held, _, result⟩ := exists_rewrite_tuple step node old kind elems
      rw [result, others _ rfl, Alike, shape, shape, Shape.tuple.injEq] at alike
      have parts := alike_of_shapes alike.2
      exact .tuple _ _ _ fun elem member => ih elem member (parts elem member)
  | var old param => exact .var _ _

end Ty

namespace DecompileRules

variable {rules : DecompileRules} {tuples : TupleTycons} {store : UnitStore} {tycon : TyconRef}
  {args : List Ty} {ty formed : Ty} {nullness : Nullness} {node : NodeId}

theorem isApp_of_decompileApp?
    (found : rules.decompileApp? tuples store node tycon args nullness = some formed) :
    formed.isApp = false := by
  simp only [decompileApp?] at found
  split at found
  case h_1 => cases found
  case h_2 =>
    cases found
    rfl
  case h_3 => cases found
  case h_4 =>
    obtain ⟨flat, _, rfl⟩ := Option.map_eq_some_iff.mp found
    rfl

theorem Decompiled.of_alike (alike : (rules.decompile tuples store node ty).Alike ty) :
    rules.Decompiled store ty := by
  have each : ty.EachApp fun _ _ => True := ty.eachApp_of_all fun _ _ => trivial
  refine each.of_rewrite_alike (decompileNode_of_formless node) ?moves
    (fun _ => decompileNode_of_not_isApp node) node alike
  intro held tycon args nullness _ forms old others same
  cases found : rules.decompileApp? tuples store node tycon args nullness with
  | none => exact forms (decompileApp?_eq_none_iff.mp found)
  | some formed =>
      rw [decompileNode, found, Option.getD_some] at same
      have apart := isApp_of_decompileApp? found
      cases formed with
      | app => cases apart
      | fn => cases same
      | tuple => cases same
      | var => cases same

end DecompileRules

namespace ImproveRules

variable {rules : ImproveRules} {prims : PrimitiveTypes} {store : UnitStore} {ty : Ty}
  {node : NodeId}

/-- A type that improving gives back, up to the numbers of nodes, is improved, where no constructor
is replaced by itself. -/
theorem Improved.of_alike
    (each : ty.EachApp fun tycon _ => ∀ kind, rules.kind? store tycon = some kind →
      ¬ (prims.constructors.get kind).Same tycon)
    (alike : (rules.improve prims store node ty).Alike ty) : rules.Improved store ty := by
  refine each.of_rewrite_alike (improveNode_of_unspelled node) ?moves
    (fun _ => improveNode_of_not_isApp node) node alike
  intro held tycon args nullness replaced spelled old others same
  rw [Classical.not_imp, List.length_eq_zero_iff] at spelled
  obtain ⟨rfl, some⟩ := spelled
  obtain ⟨kind, found⟩ := Option.ne_none_iff_exists'.mp some
  obtain ⟨made, shown, result⟩ := exists_withNullness prims node kind nullness
  have improved : rules.improveNode prims store node (.app held tycon [] nullness) =
      .app made (prims.constructors.get kind) [] shown := by
    simp only [improveNode, improveApp?, List.isEmpty_nil, if_true, found, Option.map_some,
      Option.getD_some, result]
  rw [improved, Ty.Alike, Ty.shape, Ty.shape, Shape.app.injEq] at same
  exact replaced kind found ((TyconRef.same_iff ..).mpr same.1)

end ImproveRules

namespace Session

variable {start session later : Session} {tycon : TyconRef} {ty : Ty} {args : List Ty}

theorem decompiled_eq_iff (session : Session) (ty : Ty) :
    session.decompiled ty = ty ↔ (session.decompiled ty).Alike ty := by
  constructor
  · intro same
    rw [same]
    rfl
  · intro alike
    have settled : session.decompileRulesNow.Decompiled session.units ty := .of_alike alike
    exact settled.decompile session.nextNode

theorem Fresh.improved_eq_iff (fresh : start.Fresh) (run : Run start session)
    (held : ty.Held session.units) :
    session.improved ty = ty ↔ (session.improved ty).Alike ty := by
  have each : ty.EachApp fun tycon _ => ∀ kind,
      session.improveRulesNow.kind? session.units tycon = some kind →
        ¬ (session.prims.constructors.get kind).Same tycon := by
    apply held.weaken
    intro tycon _ heldTycon kind found same
    cases found.symm.trans (fresh.kind?_of_same_language run heldTycon same)
  constructor
  · intro same
    rw [same]
    rfl
  · intro alike
    have settled : session.improveRulesNow.Improved session.units ty := .of_alike each alike
    exact settled.improve session.nextNode

theorem decompileTycon_none
    (formless : session.decompileRulesNow.forms session.units tycon args.length = false)
    (nullness : Nullness) :
    ∃ final, decompileTycon tycon args nullness session = .ok none final := by
  have answer := decompileTycon_eq session tycon args nullness
  rw [DecompileRules.decompileApp?_eq_none_iff.mpr formless] at answer
  exact ⟨_, answer⟩

theorem decompiled_settled
    (decompiled : session.decompileRulesNow.Decompiled session.units ty) :
    (ty.EachApp fun tycon count => ∀ args nullness, args.length = count →
      ∃ final, decompileTycon tycon args nullness session = .ok none final) ∧
    ∃ final, decompileTy ty session = .ok ty final := by
  constructor
  · apply decompiled.weaken
    rintro tycon _ formless args nullness rfl
    exact decompileTycon_none formless nullness
  · have served := decompileTy_served session ty
    rw [Session.decompiled, decompiled.decompile] at served
    exact ⟨_, served⟩

theorem improved_settled (improved : session.improveRulesNow.Improved session.units ty) :
    ∃ final, improveTy ty session = .ok ty final := by
  have served := improveTy_served session ty
  rw [Session.improved, improved.improve] at served
  exact ⟨_, served⟩

theorem decoded_settled (decoded : session.tycons.tuples.Decoded ty) :
    ∃ again final, decodeDeep ty session = .ok again final ∧ again.Alike ty :=
  ⟨_, _, decodeDeep_served session ty, Ty.alike_of_bare (decoded.bare_decodeDeep session.nextNode)⟩

/-- Decompiling leaves no application that has a structural form, and deep decoding no nominal tuple
of two or more arguments. Decompiling and improving give back the very handle that they are given
exactly if they give back the tree, and do so with their own results; deep decoding gives back the
tree of its own results. All this holds at once and whatever is defined and asked in between. -/
theorem normal_forms (created : start.Created) (run : Run start session)
    (held : ty.Held session.units) :
    (∃ result next, decompileTy ty session = .ok result next ∧
      (result = ty ↔ result.Alike ty) ∧
      ∀ later, Run next later →
        (result.EachApp fun tycon count => ∀ args nullness, args.length = count →
          ∃ final, decompileTycon tycon args nullness later = .ok none final) ∧
        ∃ final, decompileTy result later = .ok result final) ∧
    (∃ result next, improveTy ty session = .ok result next ∧
      (result = ty ↔ result.Alike ty) ∧
      ∀ later, Run next later → ∃ final, improveTy result later = .ok result final) ∧
    (∃ result next, decodeDeep ty session = .ok result next ∧
      session.tycons.tuples.Decoded result ∧
      ∀ later, Run next later →
        ∃ again final, decodeDeep result later = .ok again final ∧ again.Alike result) := by
  have fresh := created.fresh
  refine ⟨?decompile, ?improve, ?decode⟩
  case decompile =>
    refine ⟨_, _, decompileTy_served session ty, session.decompiled_eq_iff ty, ?_⟩
    intro later since
    exact decompiled_settled (fresh.decompiled_since run held since)
  case improve =>
    refine ⟨_, _, improveTy_served session ty, fresh.improved_eq_iff run held, ?_⟩
    intro later since
    exact improved_settled (fresh.improved_since run held since)
  case decode =>
    have decoded : session.tycons.tuples.Decoded
        (session.tycons.tuples.decodeDeep session.nextNode ty) :=
      (TupleTycons.eachApp_decodeDeep held session.nextNode).weaken fun _ _ kept => kept.2
    refine ⟨_, _, decodeDeep_served session ty, decoded, ?_⟩
    intro later since
    have tycons : later.tycons = session.tycons := since.evolves.tycons
    exact decoded_settled (tycons ▸ decoded)

/-- A nominal tuple of nine elements, one of which is the host's integer, once the constructors of
nominal tuples are defined. -/
theorem normal_forms_nine :
    ∃ (start session : Session) (host : TyconRef) (elem ty : Ty), start.Created ∧
      Run start session ∧ session.tycons.hostPrim? .int32 = some host ∧
      (∀ kind place, ((session.tycons.tuples.family kind).get place).canDeref session.units) ∧
      ty = .app 1 ((session.tycons.tuples.family .reference).get 7)
        [elem, elem, elem, elem, elem, elem, elem,
          .app 2 ((session.tycons.tuples.family .reference).get 1)
            [elem, .app 3 host [] .ambivalent] .withoutNull] .withoutNull ∧
      ty.Held session.units ∧
      (∃ result next, decompileTy ty session = .ok result next ∧
        (result = ty ↔ result.Alike ty) ∧
        ∀ later, Run next later → ∃ final, decompileTy result later = .ok result final) ∧
      (∃ result next, improveTy ty session = .ok result next ∧
        (result = ty ↔ result.Alike ty) ∧
        ∀ later, Run next later → ∃ final, improveTy result later = .ok result final) ∧
      (∃ result next, decodeDeep ty session = .ok result next ∧
        session.tycons.tuples.Decoded result) := by
  obtain ⟨start, session, created, use, defined, _⟩ := exists_tuples_defined
  have located := created.fresh.located_run use.run
  rcases located.hostPrims .int32 with ⟨_, host, _, recorded, finds⟩ | ⟨unnamed, _⟩
  · let elem : Ty := .var 0 ⟨.empty, 0⟩
    let pair : Ty := .app 2 ((session.tycons.tuples.family .reference).get 1)
      [elem, .app 3 host [] .ambivalent] .withoutNull
    let ty : Ty := .app 1 ((session.tycons.tuples.family .reference).get 7)
      [elem, elem, elem, elem, elem, elem, elem, pair] .withoutNull
    have tuples : ∀ place,
        ((session.tycons.tuples.family .reference).get place).Held session.units :=
      fun place => (located.tuples .reference place).toLookedUp.held session.units
    have leaf : elem.Held session.units := .var _ _
    have integer : (Ty.app 3 host [] .ambivalent).Held session.units :=
      .app _ _ _ _ (finds.toLookedUp.held _) nofun
    have inner : pair.Held session.units := .app _ _ _ _ (tuples 1) (by simpa using ⟨leaf, integer⟩)
    have held : ty.Held session.units := .app _ _ _ _ (tuples 7) (by simpa using ⟨leaf, inner⟩)
    obtain ⟨⟨decompiled, next, served, same, settled⟩, improves, decoded, other, decodes, isDecoded,
      _⟩ := normal_forms created use.run held
    have decompiles : ∀ later, Run next later →
        ∃ final, decompileTy decompiled later = .ok decompiled final :=
      fun later since => (settled later since).2
    exact ⟨start, session, host, elem, ty, created, use.run, recorded, defined, rfl, held,
      ⟨decompiled, next, served, same, decompiles⟩, improves, decoded, other, decodes, isDecoded⟩
  · cases unnamed

end Session

end TypeEnv
