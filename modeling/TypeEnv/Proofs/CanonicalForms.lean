import TypeEnv.Proofs.Applications

/-!
Canonical forms. Decompiling and improving change different applications: no constructor that
improving replaces, and none that it puts in place, is a nominal tuple, so improving neither makes
nor breaks a chain of nominal tuples. The passes therefore commute, and after both of them neither
has anything left to do.
-/

namespace TypeEnv

namespace DecompileRules

variable {rules : DecompileRules} {tuples : TupleTycons} {store : UnitStore}

theorem forms_zero (rules : DecompileRules) (store : UnitStore) (tycon : TyconRef) :
    rules.forms store tycon 0 = false := by
  rw [forms]
  split <;> rfl

theorem decompile_nullary (rules : DecompileRules) (tuples : TupleTycons) (store : UnitStore)
    (node old : NodeId) (tycon : TyconRef) (nullness : Nullness) :
    rules.decompile tuples store node (.app old tycon [] nullness) =
      .app old tycon [] nullness := by
  have decompiled : rules.Decompiled store (.app old tycon [] nullness) :=
    .app _ _ _ _ (rules.forms_zero store tycon) nofun
  exact decompiled.decompile node

end DecompileRules

section Commute

variable {rules : DecompileRules} {names : ImproveRules} {tuples : TupleTycons}
  {prims : PrimitiveTypes} {store : UnitStore}

/-- No nominal tuple constructor is improved, and none is the name of a primitive in the language.
-/
structure ImproveRules.Foreign (names : ImproveRules) (prims : PrimitiveTypes)
    (tuples : TupleTycons) (store : UnitStore) : Prop where
  replaced : ∀ tycon kind, tycon.Held store → names.kind? store tycon = some kind →
    tuples.classify tycon = none
  language : ∀ kind, tuples.classify (prims.constructors.get kind) = none

variable (foreign : names.Foreign prims tuples store)

include foreign

theorem TupleTycons.map_improve_continuation (node : NodeId) (kind : TupleKind) {slot : Ty}
    (held : slot.Held store) :
    (tuples.continuation kind slot).map (List.map (names.improve prims store node)) =
      tuples.continuation kind (names.improve prims store node slot) := by
  induction held with
  | app old tycon args nullness here _ ih =>
      cases args with
      | nil =>
          rw [ImproveRules.improve_nullary]
          cases spelled : names.kind? store tycon with
          | some primitive =>
              obtain ⟨made, shown, result⟩ :=
                ImproveRules.exists_withNullness prims node primitive nullness
              rw [Option.map_some, Option.getD_some, result]
              simp only [continuation, foreign.replaced tycon primitive here spelled,
                foreign.language primitive, Option.map_none]
          | none => exact map_continuation_app nullness fun _ => rfl
      | cons arg rest =>
          obtain ⟨made, _, result⟩ := names.exists_improve_app prims store node old tycon
            (List.cons_ne_nil arg rest) nullness
          rw [result]
          exact map_continuation_app nullness fun _ => map_elements ih
  | fn old domain range nullness =>
      obtain ⟨made, _, result⟩ := Ty.exists_rewrite_fn (names.improveNode prims store node) node old
        domain range nullness
      rw [ImproveRules.improve, result]
      rfl
  | tuple old found elems =>
      obtain ⟨made, _, result⟩ := Ty.exists_rewrite_tuple (names.improveNode prims store node) node
        old found elems
      rw [ImproveRules.improve, result]
      exact map_continuation_tuple found elems
  | var => rfl

theorem DecompileRules.map_improve_decompileApp? (node : NodeId) (tycon : TyconRef)
    (nullness : Nullness) {args : List Ty} (held : ∀ arg ∈ args, arg.Held store) :
    (rules.decompileApp? tuples store node tycon args nullness).map
        (names.improve prims store node) =
      rules.decompileApp? tuples store node tycon (args.map (names.improve prims store node))
        nullness := by
  apply map_decompileApp?
  case function => exact fun domain range => names.improve_fn prims store node domain range nullness
  case source => exact names.improve_tuple prims store node
  case kept =>
    intro kind _
    exact TupleTycons.map_elements fun arg member =>
      TupleTycons.map_improve_continuation foreign node kind (held arg member)

/-- The passes commute at an application whose arguments are decompiled already. -/
theorem improve_decompileApp? (node : NodeId) (tycon : TyconRef) (nullness : Nullness)
    {args : List Ty} (held : ∀ arg ∈ args, arg.Held store) (some : args ≠ []) :
    names.improve prims store node
        ((rules.decompileApp? tuples store node tycon args nullness).getD
          (.app node tycon args nullness)) =
      (rules.decompileApp? tuples store node tycon (args.map (names.improve prims store node))
        nullness).getD
          (.app node tycon (args.map (names.improve prims store node)) nullness) := by
  rw [← DecompileRules.map_improve_decompileApp? foreign node tycon nullness held,
    ← names.improve_app prims store node tycon some nullness]
  exact (Option.getD_map ..).symm

theorem decompile_improve_bare {ty : Ty} (held : ty.Held store) :
    rules.decompile tuples store 0 (names.improve prims store 0 ty.bare) =
      names.improve prims store 0 (rules.decompile tuples store 0 ty.bare) := by
  induction held with
  | app old tycon args nullness here parts ih =>
      rw [Ty.bare, Ty.bares_eq_map]
      by_cases empty : args = []
      · rw [empty, List.map_nil, rules.decompile_nullary, names.improve_nullary]
        cases names.kind? store tycon with
        | none => exact rules.decompile_nullary ..
        | some kind =>
            obtain ⟨made, shown, result⟩ :=
              ImproveRules.exists_withNullness prims 0 kind nullness
            rw [Option.map_some, Option.getD_some, result, rules.decompile_nullary]
      · have some : args.map Ty.bare ≠ [] := by rwa [Ne, List.map_eq_nil_iff]
        have someParts : (args.map Ty.bare).map (rules.decompile tuples store 0) ≠ [] := by
          rwa [Ne, List.map_eq_nil_iff]
        have heldParts : ∀ part ∈ (args.map Ty.bare).map (rules.decompile tuples store 0),
            part.Held store := by
          simp only [List.map_map, List.forall_mem_map]
          intro arg member
          exact (DecompileRules.eachApp_decompile (parts arg member).bare 0).weaken
            fun _ _ kept => kept.1
        rw [names.improve_app prims store 0 tycon some, rules.decompile_app, rules.decompile_app,
          Ty.map_map_congr (List.forall_mem_map.mpr ih)]
        exact (improve_decompileApp? foreign 0 tycon nullness heldParts someParts).symm
  | fn old domain range nullness _ _ ihDomain ihRange =>
      rw [Ty.bare, names.improve_fn, rules.decompile_fn, ihDomain, ihRange, rules.decompile_fn,
        names.improve_fn]
  | tuple old kind elems _ ih =>
      rw [Ty.bare, Ty.bares_eq_map, names.improve_tuple, rules.decompile_tuple,
        rules.decompile_tuple, names.improve_tuple,
        Ty.map_map_congr (List.forall_mem_map.mpr ih)]
  | var old param => rfl

end Commute

namespace Session

variable {start session next later : Session} {tycon : TyconRef} {kind : PrimitiveKind} {ty : Ty}

theorem Fresh.prims_run (fresh : start.Fresh) (run : Run start session) :
    session.prims.constructors = session.tycons.corePrims := by
  rw [run.evolves.prims, run.evolves.tycons, fresh.prims]

theorem Fresh.exists_of_kind? (fresh : start.Fresh) (run : Run start session)
    (held : tycon.Held session.units)
    (found : session.improveRulesNow.kind? session.units tycon = some kind) :
    ∃ host, (host, kind) ∈ ImproveRules.constructors session.tycons ∧ host.Same tycon := by
  rcases exists_firstUse Request.usesImprove run with ⟨units, use⟩
  have listed := ImproveRules.constructors_held (fresh.located_run run) units
  rw [use.improveRulesNow fresh.improveRules] at found
  cases strategy : session.improveStrategy with
  | byName =>
      rw [strategy] at found
      rcases Option.map_eq_some_iff.mp found with ⟨entry, first, rfl⟩
      have same : entry.1.Same tycon := by simpa using List.find?_some first
      exact ⟨entry.1, List.mem_of_find?_eq_some first, same⟩
  | byStamp =>
      rw [strategy] at found
      rcases StampRules.exists_of_find? (fresh.unitsWellFormed use) use.reaches.2 listed held
        found with ⟨entry, member, same, _, rfl⟩
      exact ⟨entry.1, member, same⟩

theorem Fresh.foreign (fresh : start.Fresh) (run : Run start session) :
    session.improveRulesNow.Foreign session.prims session.tycons.tuples session.units := by
  have located := fresh.located_run run
  constructor
  case replaced =>
    intro tycon kind held found
    rcases fresh.exists_of_kind? run held found with ⟨host, member, same⟩
    rcases located.exists_hostName (ImproveRules.mem_constructors.mp member).1 with
      ⟨name, named, finds⟩
    exact located.classify_primitive fresh.interner (Or.inr named) finds.toLookedUp same
  case language =>
    intro kind
    rcases located.exists_called kind with ⟨name, called, finds⟩
    rw [fresh.prims_run run]
    exact located.classify_primitive fresh.interner called finds.toLookedUp (TyconRef.same_refl _)

theorem Fresh.kind?_of_same_language (fresh : start.Fresh) (run : Run start session)
    (held : tycon.Held session.units) (same : (session.prims.constructors.get kind).Same tycon) :
    session.improveRulesNow.kind? session.units tycon = none := by
  have located := fresh.located_run run
  rw [fresh.prims_run run] at same
  rw [Option.eq_none_iff_forall_ne_some]
  intro other found
  rcases fresh.exists_of_kind? run held found with ⟨host, member, sameHost⟩
  exact ImproveRules.not_same_corePrim located fresh.interner member kind (sameHost.trans same.symm)

theorem Fresh.kind?_language (fresh : start.Fresh) (run : Run start session)
    (kind : PrimitiveKind) :
    session.improveRulesNow.kind? session.units (session.prims.constructors.get kind) = none := by
  rcases (fresh.located_run run).exists_called kind with ⟨_, _, finds⟩
  have held : (session.prims.constructors.get kind).Held session.units := by
    rw [fresh.prims_run run]
    exact finds.toLookedUp.held session.units
  exact fresh.kind?_of_same_language run held (TyconRef.same_refl _)

theorem Fresh.decompiled_since (fresh : start.Fresh) (run : Run start session)
    (held : ty.Held session.units) (since : Run (session.answered (.decompileTy ty)) later) :
    later.decompileRulesNow.Decompiled later.units (session.decompiled ty) := by
  by_cases applies : ty.anyNode Ty.isApp
  · rw [answered_decompileTy, if_pos applies] at since
    have stable := fresh.rule?_stable run since.evolves.units
    refine (DecompileRules.eachApp_decompile held session.nextNode).weaken ?_
    intro tycon count kept
    rw [decompileRulesNow_since since, DecompileRules.forms, stable]
    exact kept.2
  · have clean : ty.anyNode Ty.isApp = false := Bool.not_eq_true _ ▸ applies
    rw [decompiled, DecompileRules.decompile_eq_self _ clean]
    refine Ty.eachApp_of_anyNode clean fun _ _ _ _ isNoApp => ?_
    cases isNoApp

theorem Fresh.improved_since (fresh : start.Fresh) (run : Run start session)
    (held : ty.Held session.units) (since : Run (session.answered (.improveTy ty)) later) :
    later.improveRulesNow.Improved later.units (session.improved ty) := by
  by_cases applies : ty.anyNode Ty.isNullaryApp
  · rw [answered_improveTy, if_pos applies] at since
    have stable := fresh.kind?_stable run since.evolves.units
    have any : ty.EachApp fun _ _ => True := held.weaken fun _ _ _ => trivial
    refine (ImproveRules.eachApp_improve any (fun _ => trivial) (fresh.kind?_language run)
      session.nextNode).weaken ?_
    intro tycon count kept none
    rw [improveRulesNow_since since, stable]
    exact kept.2 none
  · have clean : ty.anyNode Ty.isNullaryApp = false := Bool.not_eq_true _ ▸ applies
    rw [improved, ImproveRules.improve_eq_self _ clean]
    refine Ty.eachApp_of_anyNode clean ?_
    intro node tycon args nullness some none
    rw [List.length_eq_zero_iff.mp none] at some
    cases some

def decompileImprove (ty : Ty) : SessionM Ty := do
  improveTy (← decompileTy ty)

def improveDecompile (ty : Ty) : SessionM Ty := do
  decompileTy (← improveTy ty)

theorem decompileImprove_served (session : Session) (ty : Ty) :
    decompileImprove ty session =
      .ok ((session.answered (.decompileTy ty)).improved (session.decompiled ty))
        ((session.answered (.decompileTy ty)).answered (.improveTy (session.decompiled ty))) := by
  simp only [decompileImprove, bind, EStateM.bind, decompileTy_served, improveTy_served]

theorem improveDecompile_served (session : Session) (ty : Ty) :
    improveDecompile ty session =
      .ok ((session.answered (.improveTy ty)).decompiled (session.improved ty))
        ((session.answered (.improveTy ty)).answered (.decompileTy (session.improved ty))) := by
  simp only [improveDecompile, bind, EStateM.bind, decompileTy_served, improveTy_served]

theorem KeepsUnits.bare_decompiled (keeps : KeepsUnits session next) (ty : Ty) :
    (next.decompiled ty).bare =
      session.decompileRulesNow.decompile session.tycons.tuples session.units 0 ty.bare := by
  rw [decompiled, DecompileRules.bare_decompile, keeps.decompileRules, keeps.tycons, keeps.units]

theorem KeepsUnits.bare_improved (keeps : KeepsUnits session next) (ty : Ty) :
    (next.improved ty).bare =
      session.improveRulesNow.improve session.prims session.units 0 ty.bare := by
  rw [improved, ImproveRules.bare_improve, keeps.improveRules, keeps.prims, keeps.units]

theorem Fresh.passes_alike (fresh : start.Fresh) (run : Run start session)
    (held : ty.Held session.units) :
    ((session.answered (.decompileTy ty)).improved (session.decompiled ty)).Alike
      ((session.answered (.improveTy ty)).decompiled (session.improved ty)) := by
  have afterDecompile := keepsUnits_answered session (.decompileTy ty)
  have afterImprove := keepsUnits_answered session (.improveTy ty)
  apply Ty.alike_of_bare
  rw [afterDecompile.bare_improved, afterImprove.bare_decompiled,
    (KeepsUnits.refl session).bare_decompiled, (KeepsUnits.refl session).bare_improved]
  exact (decompile_improve_bare (fresh.foreign run) held).symm

/-- Neither pass has anything left to do. -/
structure Canonical (session : Session) (ty : Ty) : Prop where
  decompiled : session.decompileRulesNow.Decompiled session.units ty
  improved : session.improveRulesNow.Improved session.units ty

theorem Canonical.served (canonical : session.Canonical ty) :
    ∃ final, decompileImprove ty session = .ok ty final := by
  have keeps := keepsUnits_answered session (.decompileTy ty)
  have first : session.decompiled ty = ty := canonical.decompiled.decompile session.nextNode
  have second : (session.answered (.decompileTy ty)).improved ty = ty := by
    rw [Session.improved, keeps.improveRules, keeps.units]
    exact canonical.improved.improve _
  have served := decompileImprove_served session ty
  rw [first, second] at served
  exact ⟨_, served⟩

theorem Fresh.canonical_since (fresh : start.Fresh) (run : Run start session)
    (held : ty.Held session.units)
    (since : Run ((session.answered (.decompileTy ty)).answered
      (.improveTy (session.decompiled ty))) later) :
    later.Canonical ((session.answered (.decompileTy ty)).improved (session.decompiled ty)) := by
  have served (query : CanonQuery) (before : Session) : Run before (before.answered query) :=
    .single ⟨.canonicalize query, (after_canonicalize before query).symm⟩
  have middle := run.trans (served (.decompileTy ty) session)
  have keeps := keepsUnits_answered session (.decompileTy ty)
  have heldDecompiled :
      (session.decompiled ty).Held (session.answered (.decompileTy ty)).units := by
    rw [keeps.units]
    exact (DecompileRules.eachApp_decompile held session.nextNode).weaken fun _ _ kept => kept.1
  have decompiled := fresh.decompiled_since run held ((served _ _).trans since)
  constructor
  case decompiled =>
    have language := later.decompileRulesNow.forms_zero later.units
    exact (ImproveRules.eachApp_improve decompiled (fun kind => language _)
      (fresh.kind?_language middle) _).weaken fun _ _ kept => kept.1
  case improved => exact fresh.improved_since middle heldDecompiled since

/-- The passes commute: a type that is decompiled and then improved is structurally what it is when
it is improved and then decompiled. What comes out is canonical: a second round gives back the very
handle, at once and after whatever is defined and asked in between. -/
theorem passes_commute (created : start.Created) (run : Run start session)
    (held : ty.Held session.units) :
    ∃ first second next other,
      decompileImprove ty session = .ok first next ∧
      improveDecompile ty session = .ok second other ∧ first.Alike second ∧
      ∀ later, Run next later → ∃ final, decompileImprove first later = .ok first final := by
  have fresh := created.fresh
  refine ⟨_, _, _, _, decompileImprove_served session ty, improveDecompile_served session ty,
    fresh.passes_alike run held, ?_⟩
  intro later since
  exact (fresh.canonical_since run held since).served

/-- The nominal pair of the host's integer and a type parameter, once the constructors of nominal
tuples are defined. -/
theorem passes_commute_pair :
    ∃ (start session : Session) (host : TyconRef) (pair : Ty), start.Created ∧
      Run start session ∧ session.tycons.hostPrim? .int32 = some host ∧
      (∀ kind place, ((session.tycons.tuples.family kind).get place).canDeref session.units) ∧
      pair = .app 1 ((session.tycons.tuples.family .reference).get 1)
        [.app 2 host [] .ambivalent, .var 3 ⟨.empty, 0⟩] .withoutNull ∧
      ∃ first second next other,
        decompileImprove pair session = .ok first next ∧
        improveDecompile pair session = .ok second other ∧ first.Alike second ∧
        ∀ later, Run next later → ∃ final, decompileImprove first later = .ok first final := by
  obtain ⟨start, created, config, _⟩ := exists_bootstrap
  have bootstrap : start.config.compilingStdLib = true := by rw [config]
  obtain ⟨session, quiet, defined⟩ := created.fresh.exists_defined_tuples bootstrap .refl
  have located := created.fresh.located_run quiet.run
  rcases located.hostPrims .int32 with ⟨_, host, _, recorded, finds⟩ | ⟨unnamed, _⟩
  · have tuple := (located.tuples .reference 1).toLookedUp.held session.units
    have integer : (Ty.app 2 host [] .ambivalent).Held session.units :=
      .app _ _ _ _ (finds.toLookedUp.held _) nofun
    have held : (Ty.app 1 ((session.tycons.tuples.family .reference).get 1)
        [.app 2 host [] .ambivalent, .var 3 ⟨.empty, 0⟩] .withoutNull).Held session.units := by
      refine .app _ _ _ _ tuple ?_
      intro arg member
      rcases List.mem_pair.mp member with rfl | rfl
      · exact integer
      · exact .var _ _
    exact ⟨start, session, host, _, created, quiet.run, recorded, defined, rfl,
      passes_commute created quiet.run held⟩
  · cases unnamed

end Session

end TypeEnv
