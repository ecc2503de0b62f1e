import TypeEnv.Proofs.CanonicalForms
import TypeEnv.Proofs.Substitution

namespace TypeEnv

namespace PrimitiveTypes

variable (prims : PrimitiveTypes) (node : NodeId) (kind : PrimitiveKind) (nullness : Nullness)

theorem withNullness_of_untracked (untracked : prims.tracksNull = false) :
    prims.withNullness node kind nullness = prims.get kind := by
  simp [withNullness, get, shared, untracked]

theorem exists_withNullness_tracked :
    ∃ held, prims.withNullness node kind nullness = .app held (prims.constructors.get kind) []
      (if prims.tracksNull then nullness else .ambivalent) := by
  cases tracks : prims.tracksNull with
  | false =>
      refine ⟨sharedNode, ?_⟩
      rw [prims.withNullness_of_untracked node kind nullness tracks, get, shared, ite_self,
        if_neg Bool.false_ne_true]
  | true =>
      rw [withNullness]
      split
      case isTrue reason =>
        refine ⟨sharedNode, ?_⟩
        cases nullness <;> simp_all [shared]
      case isFalse => exact ⟨node, rfl⟩

end PrimitiveTypes

namespace Ty

variable (images : List Ty)

theorem subst_nullary (node old : NodeId) (tycon : TyconRef) (nullness : Nullness) :
    subst node images (.app old tycon [] nullness) = .app old tycon [] nullness := by
  rw [subst, rewrite_eq]
  rfl

end Ty

namespace ImproveRules

variable {names : ImproveRules} {prims : PrimitiveTypes} {store : UnitStore} {images : List Ty}

theorem improve_subst_bare (ty : Ty) :
    names.improve prims store 0 (Ty.subst 0 images ty.bare) =
      Ty.subst 0 (images.map (names.improve prims store 0)) (names.improve prims store 0 ty.bare) := by
  induction ty using Ty.induction with
  | app old tycon args nullness ih =>
      cases args with
      | nil =>
          rw [Ty.bare, Ty.bares_eq_map, List.map_nil, Ty.subst_nullary, improve_nullary]
          cases names.kind? store tycon with
          | none => exact (Ty.subst_nullary ..).symm
          | some kind =>
              obtain ⟨held, shown, result⟩ := exists_withNullness prims 0 kind nullness
              rw [Option.map_some, Option.getD_some, result, Ty.subst_nullary]
      | cons arg rest =>
          have some : (arg :: rest).map Ty.bare ≠ [] := by simp
          have someImages : ((arg :: rest).map Ty.bare).map (Ty.subst 0 images) ≠ [] := by simp
          rw [Ty.bare, Ty.bares_eq_map, Ty.subst_app, names.improve_app prims store 0 tycon some,
            names.improve_app prims store 0 tycon someImages, Ty.subst_app,
            Ty.map_map_congr (List.forall_mem_map.mpr ih)]
  | fn old domain range nullness ihDomain ihRange =>
      rw [Ty.bare, Ty.subst_fn, names.improve_fn, names.improve_fn, Ty.subst_fn, ihDomain, ihRange]
  | tuple old kind elems ih =>
      rw [Ty.bare, Ty.bares_eq_map, Ty.subst_tuple, names.improve_tuple, names.improve_tuple,
        Ty.subst_tuple, Ty.map_map_congr (List.forall_mem_map.mpr ih)]
  | var old param =>
      -- What is put in is improved itself, and the type parameter stays where nothing is put in.
      change names.improve prims store 0 (Ty.subst 0 images (.var 0 param)) =
        Ty.subst 0 (images.map (names.improve prims store 0)) (.var 0 param)
      rw [Ty.subst_var, Ty.subst_var, List.getElem?_map]
      cases images[param.index]? with
      | none => rfl
      | some image => rfl

end ImproveRules

namespace Session

variable {start session next : Session} {tycon : TyconRef} {nullness : Nullness} {image ty : Ty}
  {images : List Ty}

/-- What improving makes of a type. An application to no arguments gives way to the primitive that is
the answer for it, if there is one; every other node has its constructor, its kind and its nullness
still, over what becomes of its parts. -/
inductive Improves (session : Session) : Ty → Ty → Prop where
  | replaced {old : NodeId} {tycon : TyconRef} {nullness : Nullness} {image : Ty} {next : Session}
    (answer : improveTycon tycon [] nullness session = .ok (some image) next) :
    Improves session (.app old tycon [] nullness) image
  | app {old made : NodeId} {tycon : TyconRef} {args images : List Ty} {nullness : Nullness}
    {next : Session} (answer : improveTycon tycon args nullness session = .ok none next)
    (parts : List.Forall₂ (Improves session) args images) :
    Improves session (.app old tycon args nullness) (.app made tycon images nullness)
  | fn {old made : NodeId} {domain range left right : Ty} {nullness : Nullness}
    (ofDomain : Improves session domain left) (ofRange : Improves session range right) :
    Improves session (.fn old domain range nullness) (.fn made left right nullness)
  | tuple {old made : NodeId} {kind : TupleKind} {elems images : List Ty}
    (parts : List.Forall₂ (Improves session) elems images) :
    Improves session (.tuple old kind elems) (.tuple made kind images)
  | var {node : NodeId} {param : TyParam} : Improves session (.var node param) (.var node param)

theorem forall₂_improved {tys : List Ty}
    (each : ∀ ty ∈ tys, session.Improves ty (session.improved ty)) :
    List.Forall₂ session.Improves tys (tys.map session.improved) :=
  List.forall₂_map_right_iff.mpr (List.forall₂_same.mpr each)

theorem improves_improved (session : Session) (ty : Ty) :
    session.Improves ty (session.improved ty) := by
  have pass : session.improved =
      session.improveRulesNow.improve session.prims session.units session.nextNode := rfl
  induction ty using Ty.induction with
  | app old tycon args nullness ih =>
      cases args with
      | nil =>
          have answer := improveTycon_nil session tycon nullness
          rw [ImproveRules.improveApp?, if_pos List.isEmpty_nil] at answer
          rw [pass, ImproveRules.improve_nullary]
          cases spelled : session.improveRulesNow.kind? session.units tycon with
          | none =>
              rw [spelled] at answer
              exact .app answer .nil
          | some kind =>
              rw [spelled] at answer
              exact .replaced answer
      | cons arg rest =>
          have some := List.cons_ne_nil arg rest
          obtain ⟨held, _, result⟩ := session.improveRulesNow.exists_improve_app session.prims
            session.units session.nextNode old tycon some nullness
          rw [pass, result]
          exact .app (improveTycon_of_args session some) (forall₂_improved ih)
  | fn old domain range nullness ihDomain ihRange =>
      obtain ⟨held, _, result⟩ := Ty.exists_rewrite_fn
        (session.improveRulesNow.improveNode session.prims session.units session.nextNode)
        session.nextNode old domain range nullness
      rw [pass, ImproveRules.improve, result]
      exact .fn ihDomain ihRange
  | tuple old kind elems ih =>
      obtain ⟨held, _, result⟩ := Ty.exists_rewrite_tuple
        (session.improveRulesNow.improveNode session.prims session.units session.nextNode)
        session.nextNode old kind elems
      rw [pass, ImproveRules.improve, result]
      exact .tuple (forall₂_improved ih)
  | var old param => exact .var

/-- The image is the primitive that the host spells with the constructor. It has the nullness if null
is tracked, and else it is the shared handle, which is ambivalent. -/
structure LanguagePrimitive (session : Session) (tycon : TyconRef) (nullness : Nullness)
    (image : Ty) (kind : PrimitiveKind) : Prop where
  spelled : ∃ host, session.tycons.hostPrim? kind = some host ∧ host.Same tycon
  different : ¬ (session.tycons.corePrim kind).Same tycon
  named : ∃ held, image = .app held (session.tycons.corePrim kind) []
    (if session.config.tracksNull then nullness else .ambivalent)
  untracked : session.config.tracksNull = false → image = session.prims.get kind

theorem Created.languagePrimitive (created : start.Created) (run : Run start session)
    (held : tycon.Held session.units)
    (answer : improveTycon tycon [] nullness session = .ok (some image) next) :
    ∃ kind, session.LanguagePrimitive tycon nullness image kind := by
  have fresh := created.fresh
  have tracks : session.prims.tracksNull = session.config.tracksNull := by
    rw [run.evolves.prims, run.evolves.config, created.tracksNull]
  rw [improveTycon_nil, ImproveRules.improveApp?, if_pos List.isEmpty_nil] at answer
  injection answer with found
  obtain ⟨kind, spelled, rfl⟩ := Option.map_eq_some_iff.mp found
  obtain ⟨host, member, same⟩ := fresh.exists_of_kind? run held spelled
  obtain ⟨made, result⟩ := session.prims.exists_withNullness_tracked session.nextNode kind nullness
  refine ⟨kind, ?_⟩
  constructor
  case spelled => exact ⟨host, (ImproveRules.mem_constructors.mp member).1, same⟩
  case different =>
    intro own
    exact (ImproveRules.mem_constructors.mp member).2 (same.trans own.symm)
  case named =>
    refine ⟨made, ?_⟩
    rw [result, fresh.prims_run run, ← tracks]
    rfl
  case untracked =>
    intro off
    exact session.prims.withNullness_of_untracked _ kind nullness (tracks.trans off)

theorem Fresh.exists_improveTycon (fresh : start.Fresh) (run : Run start session)
    (bootstrap : start.config.compilingStdLib = true) {kind : PrimitiveKind} {host : TyconRef}
    (recorded : session.tycons.hostPrim? kind = some host) (renamed : kind ≠ .systemType)
    (nullness : Nullness) :
    ∃ image next, improveTycon host [] nullness session = .ok (some image) next := by
  have different : ¬ host.Same (session.tycons.corePrim kind) := by
    intro same
    have isHost : session.tycons.at? (.host kind) = some host := recorded
    have isCore : session.tycons.at? (.core kind) = some (session.tycons.corePrim kind) := rfl
    rcases (fresh.located_run run).eq_of_same fresh.interner isHost isCore same with
      equal | ⟨equal, _⟩ | ⟨equal, _⟩
    · cases equal
    · cases equal
    · cases equal
      exact renamed rfl
  have listed := ImproveRules.mem_constructors.mpr ⟨recorded, different⟩
  have byName : session.improveStrategy = .byName := by
    rw [improveStrategy, run.evolves.config, if_pos bootstrap]
  have found : (session.improveRulesNow.kind? session.units host).isSome := by
    rcases exists_firstUse Request.usesImprove run with ⟨units, use⟩
    rw [use.improveRulesNow fresh.improveRules, byName, ImproveRules.build, ImproveRules.kind?,
      Option.isSome_map, List.find?_isSome]
    exact ⟨_, listed, decide_eq_true (TyconRef.same_refl host)⟩
  obtain ⟨spelled, known⟩ := Option.isSome_iff_exists.mp found
  have answer := improveTycon_nil session host nullness
  rw [ImproveRules.improveApp?, if_pos List.isEmpty_nil, known] at answer
  exact ⟨_, _, answer⟩

def improveInstance (images : List Ty) (ty : Ty) : SessionM Ty := do
  improveTy (← subst images ty)

def instantiateImproved (images : List Ty) (ty : Ty) : SessionM Ty := do
  let improvedImages ← images.mapM improveTy
  let improvedTy ← improveTy ty
  subst improvedImages improvedTy

def bareImproved (session : Session) (ty : Ty) : Ty :=
  session.improveRulesNow.improve session.prims session.units 0 ty.bare

theorem KeepsUnits.bareImproved (keeps : KeepsUnits session next) :
    next.bareImproved = session.bareImproved := by
  funext ty
  rw [Session.bareImproved, Session.bareImproved, keeps.improveRules, keeps.prims, keeps.units]

theorem improveTy_ok (session : Session) (ty : Ty) :
    ∃ result next, improveTy ty session = .ok result next ∧ KeepsUnits session next ∧
      result.bare = session.bareImproved ty :=
  ⟨_, _, improveTy_served session ty, keepsUnits_answered session (.improveTy ty),
    (KeepsUnits.refl session).bare_improved ty⟩

theorem improveInstance_served (session : Session) (images : List Ty) (ty : Ty) :
    ∃ result next, improveInstance images ty session = .ok result next ∧
      result.bare = session.improveRulesNow.improve session.prims session.units 0
        (Ty.subst 0 (images.map Ty.bare) ty.bare) := by
  have served := improveTy_served session.tookNode (Ty.subst session.nextNode images ty)
  refine ⟨_, _, served, ?_⟩
  rw [(keepsUnits_tookNode session).bare_improved, Ty.bare_subst]

theorem instantiateImproved_served (session : Session) (images : List Ty) (ty : Ty) :
    ∃ result next, instantiateImproved images ty session = .ok result next ∧
      result.bare = Ty.subst 0 (images.map session.bareImproved) (session.bareImproved ty) := by
  obtain ⟨parts, middle, servedParts, keeps, bareParts⟩ :=
    mapM_query_ok improveTy_ok KeepsUnits.bareImproved session images
  obtain ⟨whole, later, servedWhole, _, bareWhole⟩ := improveTy_ok middle ty
  have served : instantiateImproved images ty session =
      .ok (Ty.subst later.nextNode parts whole) later.tookNode := by
    simp only [instantiateImproved, bind, EStateM.bind, servedParts, servedWhole]
    rfl
  refine ⟨_, _, served, ?_⟩
  rw [Ty.bare_subst, bareParts, bareWhole, keeps.bareImproved]

/-- Improving replaces each application to no arguments that is a host primitive by the primitive of
the language, with its nullness if null is tracked and as the shared handle if not, and leaves every
other node as it is; and it commutes with putting types in for the type parameters. -/
theorem improve_exact (created : start.Created) (run : Run start session) :
    (∀ ty, ∃ result next, improveTy ty session = .ok result next ∧ session.Improves ty result) ∧
    (∀ tycon nullness image next, tycon.Held session.units →
      improveTycon tycon [] nullness session = .ok (some image) next →
      ∃ kind, session.LanguagePrimitive tycon nullness image kind) ∧
    ∀ images ty, ∃ first second next other, improveInstance images ty session = .ok first next ∧
      instantiateImproved images ty session = .ok second other ∧ first.Alike second := by
  refine ⟨?exact, fun _ _ _ _ held answer => created.languagePrimitive run held answer, ?commutes⟩
  case exact =>
    intro ty
    exact ⟨_, _, improveTy_served session ty, session.improves_improved ty⟩
  case commutes =>
    intro images ty
    obtain ⟨first, next, servedFirst, bareFirst⟩ := improveInstance_served session images ty
    obtain ⟨second, other, servedSecond, bareSecond⟩ := instantiateImproved_served session images ty
    refine ⟨first, second, next, other, servedFirst, servedSecond, Ty.alike_of_bare ?_⟩
    calc
      first.bare = session.improveRulesNow.improve session.prims session.units 0
          (Ty.subst 0 (images.map Ty.bare) ty.bare) := bareFirst
      _ = Ty.subst 0 (images.map session.bareImproved) (session.bareImproved ty) := by
        rw [ImproveRules.improve_subst_bare, List.map_map]
        rfl
      _ = second.bare := bareSecond.symm

theorem improve_exact_tracked :
    ∃ (start next : Session) (host : TyconRef) (image : Ty), start.Created ∧
      start.config.tracksNull = true ∧ start.tycons.hostPrim? .int32 = some host ∧
      host.Held start.units ∧ improveTycon host [] .withNull start = .ok (some image) next ∧
      (∃ kind, start.LanguagePrimitive host .withNull image kind) ∧
      (∃ result other,
        improveTy (.fn 1 (.app 2 host [] .withNull) (.var 3 ⟨.empty, 0⟩) .ambivalent) start =
          .ok result other ∧
        start.Improves (.fn 1 (.app 2 host [] .withNull) (.var 3 ⟨.empty, 0⟩) .ambivalent)
          result) ∧
      ∃ first second other last,
        improveInstance [.app 2 host [] .withNull]
          (.fn 1 (.app 2 host [] .withNull) (.var 3 ⟨.empty, 0⟩) .ambivalent) start =
            .ok first other ∧
        instantiateImproved [.app 2 host [] .withNull]
          (.fn 1 (.app 2 host [] .withNull) (.var 3 ⟨.empty, 0⟩) .ambivalent) start =
            .ok second last ∧
        first.Alike second := by
  have accepted : ({ compilingStdLib := true, nullTracking := true } : Config).validate = .ok () :=
    rfl
  obtain ⟨start, created, config, _⟩ := exists_created accepted
  have fresh := created.fresh
  have bootstrap : start.config.compilingStdLib = true := by rw [config]
  have tracks : start.config.tracksNull = true := by
    rw [config]
    decide
  rcases (fresh.located_run .refl).hostPrims .int32 with ⟨_, host, _, recorded, finds⟩ | ⟨unnamed, _⟩
  · have held := finds.toLookedUp.held start.units
    have renamed : PrimitiveKind.int32 ≠ .systemType := by decide
    obtain ⟨image, next, answer⟩ :=
      fresh.exists_improveTycon .refl bootstrap recorded renamed .withNull
    obtain ⟨exact, replaced, commutes⟩ := improve_exact created .refl
    exact ⟨start, next, host, image, created, tracks, recorded, held, answer,
      replaced _ _ _ _ held answer, exact _, commutes _ _⟩
  · cases unnamed

end Session

end TypeEnv
