import TypeEnv.Proofs.Applications

/-!
Deep decoding of nominal tuples. It tells tuples by comparing references and makes every node anew;
decompiling tells them by stamps and keeps what does not change. Where each tuple constructor has its
rule, the two differ in nothing but functions and the numbers of nodes.
-/

namespace TypeEnv

theorem Ty.EachApp.and {first second : TyconRef → Nat → Prop} {ty : Ty}
    (left : ty.EachApp first) (right : ty.EachApp second) :
    ty.EachApp fun tycon count => first tycon count ∧ second tycon count := by
  induction left with
  | app node tycon args nullness here _ ih =>
      cases right with
      | app _ _ _ _ hereToo parts =>
          exact .app _ _ _ _ ⟨here, hereToo⟩ fun arg member => ih arg member (parts arg member)
  | fn node domain range nullness _ _ ihDomain ihRange =>
      cases right with
      | fn _ _ _ _ left right => exact .fn _ _ _ _ (ihDomain left) (ihRange right)
  | tuple node kind elems _ ih =>
      cases right with
      | tuple _ _ _ parts => exact .tuple _ _ _ fun elem member => ih elem member (parts elem member)
  | var node param => exact .var _ _

namespace TupleTycons

variable {tuples : TupleTycons} {node : NodeId} {ty : Ty} {qualifies : TyconRef → Nat → Prop}

theorem decodeDeep_app (tuples : TupleTycons) (node old : NodeId) (tycon : TyconRef)
    (args : List Ty) (nullness : Nullness) :
    tuples.decodeDeep node (.app old tycon args nullness) =
      tuples.decodeApp node tycon (args.map (tuples.decodeDeep node)) nullness := by
  rw [decodeDeep, decodeAll_eq_map]

theorem decodeDeep_tuple (tuples : TupleTycons) (node old : NodeId) (kind : TupleKind)
    (elems : List Ty) :
    tuples.decodeDeep node (.tuple old kind elems) =
      .tuple node kind (elems.map (tuples.decodeDeep node)) := by
  rw [decodeDeep, decodeAll_eq_map]

theorem bare_decodeApp (node : NodeId) (tycon : TyconRef) (args : List Ty) (nullness : Nullness) :
    (tuples.decodeApp node tycon args nullness).bare =
      tuples.decodeApp 0 tycon (args.map Ty.bare) nullness := by
  simp only [decodeApp]
  cases tuples.classify tycon with
  | none => simp only [Ty.bare, Ty.bares_eq_map]
  | some found =>
      simp only [← map_bare_decode node]
      cases tuples.decode node found.1 args with
      | none => simp only [Option.getD_none, Option.map_none, Ty.bare, Ty.bares_eq_map]
      | some source => rfl

theorem bare_decodeDeep (node : NodeId) (ty : Ty) :
    (tuples.decodeDeep node ty).bare = tuples.decodeDeep 0 ty.bare := by
  induction ty using Ty.induction with
  | app old tycon args nullness ih =>
      rw [decodeDeep_app, bare_decodeApp, Ty.map_map_congr ih, Ty.bare, Ty.bares_eq_map,
        decodeDeep_app]
  | fn old domain range nullness ihDomain ihRange =>
      simp only [decodeDeep, Ty.bare, ihDomain, ihRange]
  | tuple old kind elems ih =>
      rw [decodeDeep_tuple, Ty.bare, Ty.bares_eq_map, Ty.map_map_congr ih, Ty.bare,
        Ty.bares_eq_map, decodeDeep_tuple]
  | var old param => rfl

theorem eachApp_decodeApp {tycon : TyconRef} {args : List Ty} {nullness : Nullness}
    (here : qualifies tycon args.length)
    (parts : ∀ arg ∈ args, arg.EachApp fun tycon count =>
      qualifies tycon count ∧ (tuples.isTuple tycon → count < 2)) :
    (tuples.decodeApp node tycon args nullness).EachApp fun tycon count =>
      qualifies tycon count ∧ (tuples.isTuple tycon → count < 2) := by
  rw [decodeApp]
  split
  case h_1 unclassified =>
    have plain : ¬ tuples.isTuple tycon := by simp [isTuple, unclassified]
    exact .app _ _ _ _ ⟨here, fun isTuple => absurd isTuple plain⟩ parts
  case h_2 kind _ classified =>
    cases decoded : tuples.decode node kind args with
    | none => exact .app _ _ _ _ ⟨here, fun _ => decode_eq_none_iff.mp decoded⟩ parts
    | some source =>
        obtain ⟨flat, found, rfl⟩ := Option.map_eq_some_iff.mp decoded
        exact .tuple _ _ _ (eachApp_of_elements parts found)

theorem eachApp_decodeDeep (each : ty.EachApp qualifies) (node : NodeId) :
    (tuples.decodeDeep node ty).EachApp fun tycon count =>
      qualifies tycon count ∧ (tuples.isTuple tycon → count < 2) := by
  induction each with
  | app old tycon args nullness here _ ih =>
      rw [decodeDeep_app]
      apply eachApp_decodeApp
      · rwa [List.length_map]
      · exact List.forall_mem_map.mpr ih
  | fn old domain range nullness _ _ ihDomain ihRange => exact .fn _ _ _ _ ihDomain ihRange
  | tuple old kind elems _ ih =>
      rw [decodeDeep_tuple]
      exact .tuple _ _ _ (List.forall_mem_map.mpr ih)
  | var old param => exact .var _ _

def Decoded (tuples : TupleTycons) : Ty → Prop :=
  Ty.EachApp fun tycon count => tuples.isTuple tycon → count < 2

theorem decodeApp_of_few {tycon : TyconRef} {args : List Ty}
    (few : tuples.isTuple tycon → args.length < 2) (nullness : Nullness) :
    tuples.decodeApp node tycon args nullness = .app node tycon args nullness := by
  rw [decodeApp]
  split
  case h_1 => rfl
  case h_2 kind _ classified =>
    have few := few (isTuple_of_classify classified)
    rw [decode_eq_none_iff.mpr few, Option.getD_none]

theorem Decoded.bare_decodeDeep (decoded : tuples.Decoded ty) (node : NodeId) :
    (tuples.decodeDeep node ty).bare = ty.bare := by
  have kept : ∀ tys : List Ty, (∀ ty ∈ tys, (tuples.decodeDeep node ty).bare = ty.bare) →
      (tys.map (tuples.decodeDeep node)).map Ty.bare = tys.map Ty.bare := by
    intro tys same
    rw [List.map_map]
    exact List.map_congr_left same
  induction decoded with
  | app old tycon args nullness few _ ih =>
      rw [decodeDeep_app, decodeApp_of_few, Ty.bare, Ty.bares_eq_map, kept args ih, Ty.bare,
        Ty.bares_eq_map]
      rwa [List.length_map]
  | fn old domain range nullness _ _ ihDomain ihRange =>
      simp only [decodeDeep, Ty.bare, ihDomain, ihRange]
  | tuple old kind elems _ ih =>
      rw [decodeDeep_tuple, Ty.bare, Ty.bares_eq_map, kept elems ih, Ty.bare, Ty.bares_eq_map]
  | var old param => rfl

end TupleTycons

namespace DecompileRules

variable {rules : DecompileRules} {tuples : TupleTycons} {store : UnitStore} {tycon : TyconRef}
  {args : List Ty} {ty : Ty}

/-- The constructor has the rule of tuples of a kind exactly if it is classified as one of them. -/
def TellsTuple (rules : DecompileRules) (tuples : TupleTycons) (store : UnitStore)
    (tycon : TyconRef) : Prop :=
  ∀ kind, rules.rule? store tycon = some (.tuple kind) ↔
    ∃ arity, tuples.classify tycon = some (kind, arity)

theorem TellsTuple.decompileApp?_eq (tells : rules.TellsTuple tuples store tycon)
    (noFunction : rules.rule? store tycon = some .function → args.length ≠ 2) (node : NodeId)
    (nullness : Nullness) :
    (rules.decompileApp? tuples store node tycon args nullness).getD
        (.app node tycon args nullness) =
      tuples.decodeApp node tycon args nullness := by
  cases classified : tuples.classify tycon with
  | some found =>
      rcases found with ⟨kind, arity⟩
      have ruled := (tells kind).mpr ⟨arity, classified⟩
      simp only [decompileApp?, TupleTycons.decodeApp, ruled, classified]
  | none =>
      simp only [decompileApp?, TupleTycons.decodeApp, classified]
      cases ruled : rules.rule? store tycon with
      | none => rfl
      | some rule =>
          cases rule with
          | function =>
              rcases args with _ | ⟨domain, _ | ⟨range, _ | ⟨third, rest⟩⟩⟩
              case cons.cons.nil => exact absurd rfl (noFunction ruled)
              all_goals rfl
          | tuple kind =>
              obtain ⟨arity, found⟩ := (tells kind).mp ruled
              rw [classified] at found
              cases found

/-- Where each tuple constructor has its rule and there are no functions to be found, deep decoding
and decompiling give one tree. -/
theorem decodeDeep_eq_decompile
    (each : ty.EachApp fun tycon count => rules.TellsTuple tuples store tycon ∧
      (rules.rule? store tycon = some .function → count ≠ 2)) :
    tuples.decodeDeep 0 ty.bare = rules.decompile tuples store 0 ty.bare := by
  induction each with
  | app old tycon args nullness here _ ih =>
      obtain ⟨tells, noFunction⟩ := here
      rw [Ty.bare, Ty.bares_eq_map, TupleTycons.decodeDeep_app, rules.decompile_app,
        Ty.map_map_congr ih, tells.decompileApp?_eq]
      simpa using noFunction
  | fn old domain range nullness _ _ ihDomain ihRange =>
      rw [Ty.bare, TupleTycons.decodeDeep, ihDomain, ihRange, rules.decompile_fn]
  | tuple old kind elems _ ih =>
      rw [Ty.bare, Ty.bares_eq_map, TupleTycons.decodeDeep_tuple, rules.decompile_tuple,
        Ty.map_map_congr ih]
  | var old param => rfl

end DecompileRules

namespace Session

variable {start session : Session} {units : UnitStore} {tycon : TyconRef} {ty : Ty}

theorem decodeDeep_served (session : Session) (ty : Ty) :
    decodeDeep ty session =
      .ok (session.tycons.tuples.decodeDeep session.nextNode ty) session.tookNode := rfl

theorem Fresh.same_func_of_rule? (fresh : start.Fresh)
    (use : FirstUse Request.usesDecompile start session units) (held : tycon.Held session.units)
    (found : session.decompileRulesNow.rule? session.units tycon = some .function) :
    (session.tycons.get .func).Same tycon := by
  obtain ⟨candidate, listed, same, _⟩ := fresh.exists_of_rule? use held found
  cases listed with
  | function => exact same

theorem Fresh.tellsTuple (fresh : start.Fresh)
    (use : FirstUse Request.usesDecompile start session units)
    (defined : ∀ kind place, ((session.tycons.tuples.family kind).get place).canDeref units)
    (enabled : session.config.supports .structTuples = true) (held : tycon.Held session.units) :
    session.decompileRulesNow.TellsTuple session.tycons.tuples session.units tycon := by
  have distinct := (fresh.located_run use.run).distinct_tuples fresh.interner
  intro kind
  constructor
  · exact fresh.classify_of_rule? use held
  · rintro ⟨arity, classified⟩
    obtain ⟨place, _, same⟩ := distinct.classify_eq_some_iff.mp classified
    have listed : DecompileRules.Listed session.tycons (session.config.supports .structTuples)
        ((session.tycons.tuples.family kind).get place) (.tuple kind) :=
      .tuple kind place fun _ => enabled
    rw [fresh.rule?_of_same use held listed same, if_pos (defined kind place)]

theorem exists_tuples_defined : ∃ start session : Session, start.Created ∧
    FirstUse Request.usesDecompile start session session.units ∧
    (∀ kind place, ((session.tycons.tuples.family kind).get place).canDeref session.units) ∧
    session.config.supports .structTuples = true := by
  obtain ⟨start, created, config, _⟩ := exists_bootstrap
  have bootstrap : start.config.compilingStdLib = true := by rw [config]
  obtain ⟨session, quiet, defined⟩ := created.fresh.exists_defined_tuples bootstrap .refl
  have enabled : session.config.supports .structTuples = true := by
    rw [quiet.run.evolves.config, config]
    decide
  exact ⟨start, session, created, .ahead quiet, defined, enabled⟩

/-- Where all sixteen tuple constructors were defined at the first use of the rules, and the language
has struct tuples, deep decoding and decompiling agree on every type in which the function
constructor is not applied to two arguments. -/
theorem decoders_agree (created : start.Created)
    (use : FirstUse Request.usesDecompile start session units)
    (defined : ∀ kind place, ((session.tycons.tuples.family kind).get place).canDeref units)
    (enabled : session.config.supports .structTuples = true) (held : ty.Held session.units)
    (noFunctions : ty.EachApp fun tycon count =>
      (session.tycons.get .func).Same tycon → count ≠ 2) :
    ∃ decoded decompiled next other, decodeDeep ty session = .ok decoded next ∧
      decompileTy ty session = .ok decompiled other ∧ decoded.Alike decompiled := by
  have fresh := created.fresh
  have tells : ty.EachApp fun tycon count =>
      session.decompileRulesNow.TellsTuple session.tycons.tuples session.units tycon ∧
        (session.decompileRulesNow.rule? session.units tycon = some .function → count ≠ 2) := by
    apply (held.and noFunctions).weaken
    intro tycon count both
    obtain ⟨heldTycon, noFunction⟩ := both
    exact ⟨fresh.tellsTuple use defined enabled heldTycon,
      fun found => noFunction (fresh.same_func_of_rule? use heldTycon found)⟩
  refine ⟨_, _, _, _, decodeDeep_served session ty, decompileTy_served session ty, ?_⟩
  apply Ty.alike_of_bare
  calc
    (session.tycons.tuples.decodeDeep session.nextNode ty).bare =
        session.tycons.tuples.decodeDeep 0 ty.bare := TupleTycons.bare_decodeDeep ..
    _ = session.decompileRulesNow.decompile session.tycons.tuples session.units 0 ty.bare :=
      DecompileRules.decodeDeep_eq_decompile tells
    _ = (session.decompiled ty).bare := (DecompileRules.bare_decompile ..).symm

theorem decoders_agree_mixed :
    ∃ (start session : Session) (elem ty : Ty), start.Created ∧
      FirstUse Request.usesDecompile start session session.units ∧
      (∀ kind place, ((session.tycons.tuples.family kind).get place).canDeref session.units) ∧
      session.config.supports .structTuples = true ∧
      ty = .app 1 ((session.tycons.tuples.family .reference).get 7)
        [elem, elem, elem, elem, elem, elem, elem,
          .app 2 ((session.tycons.tuples.family .value).get 1) [elem, elem] .withoutNull]
        .withoutNull ∧
      ∃ decoded decompiled next other, decodeDeep ty session = .ok decoded next ∧
        decompileTy ty session = .ok decompiled other ∧ decoded.Alike decompiled := by
  obtain ⟨start, session, created, use, defined, enabled⟩ := exists_tuples_defined
  have located := created.fresh.located_run use.run
  let elem : Ty := .var 0 ⟨.empty, 0⟩
  let pair : Ty := .app 2 ((session.tycons.tuples.family .value).get 1) [elem, elem] .withoutNull
  let ty : Ty := .app 1 ((session.tycons.tuples.family .reference).get 7)
    [elem, elem, elem, elem, elem, elem, elem, pair] .withoutNull
  let isTuple : TyconRef → Nat → Prop := fun tycon _ =>
    ∃ kind place, (session.tycons.tuples.family kind).get place = tycon
  have leaf : elem.EachApp isTuple := .var _ _
  have inner : pair.EachApp isTuple := .app _ _ _ _ ⟨.value, 1, rfl⟩ (by simp [leaf])
  have tuples : ty.EachApp isTuple := .app _ _ _ _ ⟨.reference, 7, rfl⟩ (by simp [leaf, inner])
  have held : ty.Held session.units := by
    apply tuples.weaken
    rintro tycon _ ⟨kind, place, rfl⟩
    exact (located.tuples kind place).toLookedUp.held session.units
  have noFunctions : ty.EachApp fun tycon count =>
      (session.tycons.get .func).Same tycon → count ≠ 2 := by
    apply tuples.weaken
    rintro tycon _ ⟨kind, place, rfl⟩ same
    exact absurd same.symm (located.not_same_func created.fresh.interner kind place)
  exact ⟨start, session, elem, ty, created, use, defined, enabled, rfl,
    decoders_agree created use defined enabled held noFunctions⟩

end Session

end TypeEnv
