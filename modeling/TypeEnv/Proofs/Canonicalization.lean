import TypeEnv.Proofs.Bare
import TypeEnv.Proofs.FirstUse

namespace TypeEnv.Session

variable {start session next later : Session} {units store : UnitStore} {tycon : TyconRef}
  {uses : Request → Bool}

theorem Fresh.unitsWellFormed (fresh : start.Fresh) (use : FirstUse uses start session units) :
    units.WellFormed :=
  use.reaches.1.wellFormed fresh.units.wellFormed

theorem Fresh.located_run (fresh : start.Fresh) (run : Run start session) :
    session.tycons.Located start.scope start.interner := by
  rw [run.evolves.tycons]
  exact fresh.located

section Decompile

theorem Fresh.decompiled_held (fresh : start.Fresh) (run : Run start session) (units : UnitStore) :
    ∀ entry ∈ DecompileRules.constructors session.tycons (session.config.supports .structTuples),
      entry.1.Held units :=
  DecompileRules.constructors_held (fresh.located_run run) units

theorem Fresh.rule?_eq (fresh : start.Fresh)
    (use : FirstUse Request.usesDecompile start session units) (store : UnitStore)
    (tycon : TyconRef) :
    session.decompileRulesNow.rule? store tycon =
      (StampRules.build units (DecompileRules.constructors session.tycons
        (session.config.supports .structTuples))).find? store tycon := by
  rw [use.decompileRulesNow fresh.decompileRules]
  rfl

/-- A constructor has a rule when it is one of the listed ones that were defined at the first use.
-/
theorem Fresh.isSome_rule?_iff (fresh : start.Fresh)
    (use : FirstUse Request.usesDecompile start session units) (held : tycon.Held session.units) :
    (session.decompileRulesNow.rule? session.units tycon).isSome ↔
      ∃ candidate rule, DecompileRules.Listed session.tycons
          (session.config.supports .structTuples) candidate rule ∧
        candidate.Same tycon ∧ candidate.canDeref units := by
  have known := fresh.decompiled_held use.run units
  rw [fresh.rule?_eq use,
    StampRules.isSome_find?_iff (fresh.unitsWellFormed use) use.reaches.2 known held]
  constructor
  · intro source
    rcases source with ⟨entry, member, same, defined⟩
    exact ⟨entry.1, entry.2, DecompileRules.mem_constructors.mp member, same, defined⟩
  · intro source
    rcases source with ⟨candidate, rule, listed, same, defined⟩
    exact ⟨(candidate, rule), DecompileRules.mem_constructors.mpr listed, same, defined⟩

theorem Fresh.exists_of_rule? (fresh : start.Fresh)
    (use : FirstUse Request.usesDecompile start session units) (held : tycon.Held session.units)
    {rule : DecompileRule}
    (found : session.decompileRulesNow.rule? session.units tycon = some rule) :
    ∃ candidate, DecompileRules.Listed session.tycons (session.config.supports .structTuples)
        candidate rule ∧ candidate.Same tycon ∧ candidate.canDeref units := by
  have known := fresh.decompiled_held use.run units
  rw [fresh.rule?_eq use] at found
  rcases StampRules.exists_of_find? (fresh.unitsWellFormed use) use.reaches.2 known held found with
    ⟨entry, member, same, defined, rfl⟩
  exact ⟨entry.1, DecompileRules.mem_constructors.mp member, same, defined⟩

theorem Fresh.rule?_of_same (fresh : start.Fresh)
    (use : FirstUse Request.usesDecompile start session units) (held : tycon.Held session.units)
    {candidate : TyconRef} {rule : DecompileRule}
    (listed : DecompileRules.Listed session.tycons (session.config.supports .structTuples)
      candidate rule) (same : candidate.Same tycon) :
    session.decompileRulesNow.rule? session.units tycon =
      if candidate.canDeref units then some rule else none := by
  have located := fresh.located_run use.run
  have known := fresh.decompiled_held use.run units
  have member := DecompileRules.mem_constructors.mpr listed
  rw [fresh.rule?_eq use]
  exact StampRules.find?_of_agree (fresh.unitsWellFormed use) use.reaches.2 known held
    (DecompileRules.constructors_agree located fresh.interner) member same

theorem Fresh.rule?_tuple (fresh : start.Fresh)
    (use : FirstUse Request.usesDecompile start session units) (kind : TupleKind)
    (place : Fin maxTuple)
    (enabled : kind = .value → session.config.supports .structTuples = true) :
    session.decompileRulesNow.rule? session.units ((session.tycons.tuples.family kind).get place) =
      if ((session.tycons.tuples.family kind).get place).canDeref units then some (.tuple kind)
      else none := by
  have listed : DecompileRules.Listed session.tycons (session.config.supports .structTuples)
      ((session.tycons.tuples.family kind).get place) (.tuple kind) := .tuple kind place enabled
  have held := listed.held (fresh.located_run use.run) session.units
  exact fresh.rule?_of_same use held listed (TyconRef.same_refl _)

theorem Fresh.rule?_tuple_eq (fresh : start.Fresh)
    (use : FirstUse Request.usesDecompile start session units) {kind : TupleKind}
    {place : Fin maxTuple} {rule : DecompileRule}
    (found : session.decompileRulesNow.rule? session.units
      ((session.tycons.tuples.family kind).get place) = some rule) : rule = .tuple kind := by
  have located := fresh.located_run use.run
  have held := (located.tuples kind place).toLookedUp.held session.units
  rcases fresh.exists_of_rule? use held found with ⟨candidate, listed, same, _⟩
  cases listed with
  | function => exact absurd same.symm (located.not_same_func fresh.interner kind place)
  | tuple other otherPlace =>
      rw [(located.distinct_tuples fresh.interner other kind otherPlace place same).1]

theorem Fresh.classify_of_rule? (fresh : start.Fresh)
    (use : FirstUse Request.usesDecompile start session units) (held : tycon.Held session.units)
    {kind : TupleKind}
    (found : session.decompileRulesNow.rule? session.units tycon = some (.tuple kind)) :
    ∃ arity, session.tycons.tuples.classify tycon = some (kind, arity) := by
  have distinct := (fresh.located_run use.run).distinct_tuples fresh.interner
  rcases fresh.exists_of_rule? use held found with ⟨candidate, listed, same, _⟩
  cases listed with
  | tuple kind place => exact ⟨_, distinct.classify_eq_some_iff.mpr ⟨place, rfl, same⟩⟩

theorem Fresh.rule?_stable (fresh : start.Fresh) (run : Run start session)
    (since : UnitStore.Reaches session.units store) (tycon : TyconRef) :
    session.decompileRulesNow.rule? store tycon =
      session.decompileRulesNow.rule? session.units tycon := by
  rcases exists_firstUse Request.usesDecompile run with ⟨units, use⟩
  have known := fresh.decompiled_held run units
  rw [fresh.rule?_eq use, fresh.rule?_eq use]
  exact StampRules.find?_stable (fresh.unitsWellFormed use) use.reaches.2 since known

end Decompile

section Improve

theorem Fresh.isSome_kind?_iff (fresh : start.Fresh)
    (use : FirstUse Request.usesImprove start session units)
    (byStamp : session.config.compilingStdLib = false) (held : tycon.Held session.units) :
    (session.improveRulesNow.kind? session.units tycon).isSome ↔
      ∃ kind host, session.tycons.hostPrim? kind = some host ∧
        ¬ host.Same (session.tycons.corePrim kind) ∧ host.Same tycon ∧ host.canDeref units := by
  have listed := ImproveRules.constructors_held (fresh.located_run use.run) units
  have strategy : session.improveStrategy = .byStamp := by
    rw [improveStrategy, byStamp, if_neg Bool.false_ne_true]
  rw [use.improveRulesNow fresh.improveRules, strategy]
  simp only [ImproveRules.build, ImproveRules.kind?]
  rw [StampRules.isSome_find?_iff (fresh.unitsWellFormed use) use.reaches.2 listed held]
  constructor
  · intro source
    rcases source with ⟨entry, member, same, defined⟩
    have listed := ImproveRules.mem_constructors.mp member
    exact ⟨entry.2, entry.1, listed.1, listed.2, same, defined⟩
  · intro source
    rcases source with ⟨kind, host, recorded, different, same, defined⟩
    have listed := ImproveRules.mem_constructors.mpr ⟨recorded, different⟩
    exact ⟨(host, kind), listed, same, defined⟩

theorem Fresh.kind?_stable (fresh : start.Fresh) (run : Run start session)
    (since : UnitStore.Reaches session.units store) (tycon : TyconRef) :
    session.improveRulesNow.kind? store tycon =
      session.improveRulesNow.kind? session.units tycon := by
  rcases exists_firstUse Request.usesImprove run with ⟨units, use⟩
  have known := ImproveRules.constructors_held (fresh.located_run run) units
  rw [use.improveRulesNow fresh.improveRules]
  cases session.improveStrategy with
  | byName => rfl
  | byStamp =>
      exact StampRules.find?_stable (fresh.unitsWellFormed use) use.reaches.2 since known

end Improve

section Answers

theorem decompileRulesNow_since (since : Run session.withDecompileRules.tookNode later) :
    later.decompileRulesNow = session.decompileRulesNow := by
  rw [decompileRulesNow, fixedBy_decompile.kept since rfl, Option.getD_some]

theorem improveRulesNow_since (since : Run session.withImproveRules.tookNode later) :
    later.improveRulesNow = session.improveRulesNow := by
  rw [improveRulesNow, fixedBy_improve.kept since rfl, Option.getD_some]

theorem Fresh.decompileTycon_again (fresh : start.Fresh) (run : Run start session)
    (since : Run session.withDecompileRules.tookNode later) (tycon : TyconRef) (args : List Ty)
    (nullness : Nullness) (node : NodeId) :
    (later.decompileRulesNow.decompileApp? later.tycons.tuples later.units later.nextNode tycon
        args nullness).map Ty.bare =
      (session.decompileRulesNow.decompileApp? session.tycons.tuples session.units node tycon args
        nullness).map Ty.bare := by
  have stable := fresh.rule?_stable run since.evolves.units
  have tycons : later.tycons = session.tycons := since.evolves.tycons
  rw [decompileRulesNow_since since, tycons, DecompileRules.decompileApp?_congr stable,
    DecompileRules.map_bare_decompileApp?, DecompileRules.map_bare_decompileApp?]

theorem Fresh.decompile_again (fresh : start.Fresh) (run : Run start session)
    (since : Run session.withDecompileRules.tookNode later) (ty : Ty) (node : NodeId) :
    (later.decompileRulesNow.decompile later.tycons.tuples later.units later.nextNode ty).bare =
      (session.decompileRulesNow.decompile session.tycons.tuples session.units node ty).bare := by
  have stable := fresh.rule?_stable run since.evolves.units
  have tycons : later.tycons = session.tycons := since.evolves.tycons
  rw [decompileRulesNow_since since, tycons, DecompileRules.decompile_congr stable,
    DecompileRules.bare_decompile, DecompileRules.bare_decompile]

theorem Fresh.improveTycon_again (fresh : start.Fresh) (run : Run start session)
    (since : Run session.withImproveRules.tookNode later) (tycon : TyconRef) (args : List Ty)
    (nullness : Nullness) (node : NodeId) :
    (later.improveRulesNow.improveApp? later.prims later.units later.nextNode tycon args
        nullness).map Ty.bare =
      (session.improveRulesNow.improveApp? session.prims session.units node tycon args
        nullness).map Ty.bare := by
  have stable := fresh.kind?_stable run since.evolves.units
  have prims : later.prims = session.prims := since.evolves.prims
  rw [improveRulesNow_since since, prims, ImproveRules.improveApp?_congr stable,
    ImproveRules.map_bare_improveApp?, ImproveRules.map_bare_improveApp?]

theorem Fresh.improve_again (fresh : start.Fresh) (run : Run start session)
    (since : Run session.withImproveRules.tookNode later) (ty : Ty) (node : NodeId) :
    (later.improveRulesNow.improve later.prims later.units later.nextNode ty).bare =
      (session.improveRulesNow.improve session.prims session.units node ty).bare := by
  have stable := fresh.kind?_stable run since.evolves.units
  have prims : later.prims = session.prims := since.evolves.prims
  rw [improveRulesNow_since since, prims, ImproveRules.improve_congr stable,
    ImproveRules.bare_improve, ImproveRules.bare_improve]

/-- The type decompiled by the rules that the session has or would fix now. -/
def decompiled (session : Session) (ty : Ty) : Ty :=
  session.decompileRulesNow.decompile session.tycons.tuples session.units session.nextNode ty

def improved (session : Session) (ty : Ty) : Ty :=
  session.improveRulesNow.improve session.prims session.units session.nextNode ty

theorem answered_decompileTy (session : Session) (ty : Ty) :
    session.answered (.decompileTy ty) =
      if ty.anyNode Ty.isApp then session.withDecompileRules.tookNode else session := by
  simp only [answered, CanonQuery.usesDecompile, CanonQuery.usesImprove, Bool.false_eq_true,
    if_false]

theorem answered_improveTy (session : Session) (ty : Ty) :
    session.answered (.improveTy ty) =
      if ty.anyNode Ty.isNullaryApp then session.withImproveRules.tookNode else session := by
  rw [answered, CanonQuery.usesDecompile, if_neg Bool.false_ne_true]
  rfl

theorem decompileTy_served (session : Session) (ty : Ty) :
    decompileTy ty session = .ok (session.decompiled ty) (session.answered (.decompileTy ty)) := by
  by_cases applies : ty.anyNode Ty.isApp
  · have after := (session.answered_decompileTy ty).trans (if_pos applies)
    exact (decompileTy_eq session applies).trans (after ▸ rfl)
  · have after := (session.answered_decompileTy ty).trans (if_neg applies)
    have kept : session.decompiled ty = ty :=
      DecompileRules.decompile_eq_self _ (Bool.not_eq_true _ ▸ applies)
    rw [after, kept]
    exact decompileTy_of_not_applies session applies

theorem improveTy_served (session : Session) (ty : Ty) :
    improveTy ty session = .ok (session.improved ty) (session.answered (.improveTy ty)) := by
  by_cases applies : ty.anyNode Ty.isNullaryApp
  · have after := (session.answered_improveTy ty).trans (if_pos applies)
    exact (improveTy_eq session applies).trans (after ▸ rfl)
  · have after := (session.answered_improveTy ty).trans (if_neg applies)
    have kept : session.improved ty = ty :=
      ImproveRules.improve_eq_self _ (Bool.not_eq_true _ ▸ applies)
    rw [after, kept]
    exact improveTy_of_not_applies session applies

/-- A query is answered, and answered alike ever after. -/
def SettledBy (session : Session) (query : CanonQuery) : Prop :=
  ∃ first next, query.answer session = .ok first next ∧
    ∀ later, Run next later → ∃ second final, query.answer later = .ok second final ∧
      second.map Ty.shape = first.map Ty.shape

theorem map_shape_eq {first second : Option Ty} (same : second.map Ty.bare = first.map Ty.bare) :
    second.map Ty.shape = first.map Ty.shape := by
  have shapes : Ty.shape = Ty.shape ∘ Ty.bare := (funext Ty.shape_bare).symm
  rw [shapes, ← Option.map_map, same, Option.map_map]

theorem settledBy_of_answer (query : CanonQuery) {first : Option Ty}
    (answered : query.answer session = .ok first next)
    (again : ∀ later, Run next later → ∃ second final, query.answer later = .ok second final ∧
      second.map Ty.bare = first.map Ty.bare) : session.SettledBy query := by
  refine ⟨first, next, answered, ?_⟩
  intro later since
  rcases again later since with ⟨second, final, answeredAgain, same⟩
  exact ⟨second, final, answeredAgain, map_shape_eq same⟩

theorem Fresh.settledBy (fresh : start.Fresh) (run : Run start session) (query : CanonQuery) :
    session.SettledBy query := by
  cases query with
  | decompileTycon tycon args nullness =>
      apply settledBy_of_answer (.decompileTycon tycon args nullness)
        (decompileTycon_eq session tycon args nullness)
      intro later since
      have same := fresh.decompileTycon_again run since tycon args nullness session.nextNode
      exact ⟨_, _, decompileTycon_eq later tycon args nullness, same⟩
  | decompileTy ty =>
      by_cases applies : ty.anyNode Ty.isApp
      · have answered := map_ok some (decompileTy_eq session applies)
        apply settledBy_of_answer (.decompileTy ty) answered
        intro later since
        have same := fresh.decompile_again run since ty session.nextNode
        exact ⟨_, _, map_ok some (decompileTy_eq later applies), congrArg some same⟩
      · have answered := map_ok some (decompileTy_of_not_applies session applies)
        apply settledBy_of_answer (.decompileTy ty) answered
        intro later since
        exact ⟨_, _, map_ok some (decompileTy_of_not_applies later applies), rfl⟩
  | improveTycon tycon args nullness =>
      cases args with
      | nil =>
          apply settledBy_of_answer (.improveTycon tycon [] nullness)
            (improveTycon_nil session tycon nullness)
          intro later since
          have same := fresh.improveTycon_again run since tycon [] nullness session.nextNode
          exact ⟨_, _, improveTycon_nil later tycon nullness, same⟩
      | cons arg rest =>
          have some := List.cons_ne_nil arg rest
          apply settledBy_of_answer (.improveTycon tycon (arg :: rest) nullness)
            (improveTycon_of_args session some)
          intro later since
          exact ⟨_, _, improveTycon_of_args later some, rfl⟩
  | improveTy ty =>
      by_cases applies : ty.anyNode Ty.isNullaryApp
      · have answered := map_ok some (improveTy_eq session applies)
        apply settledBy_of_answer (.improveTy ty) answered
        intro later since
        have same := fresh.improve_again run since ty session.nextNode
        exact ⟨_, _, map_ok some (improveTy_eq later applies), congrArg some same⟩
      · have answered := map_ok some (improveTy_of_not_applies session applies)
        apply settledBy_of_answer (.improveTy ty) answered
        intro later since
        exact ⟨_, _, map_ok some (improveTy_of_not_applies later applies), rfl⟩

end Answers

/-- Whatever is defined and asked in between, a query that is asked again is answered alike. A
constructor has a rule of decompiling at any time exactly if it is the function constructor or an
enabled tuple constructor that was defined when the rules were first used; it has a rule of
improving by stamp exactly if it is a host primitive with another spelling in the language that
was defined when those rules were first used. -/
theorem answers_settled (created : start.Created) (run : Run start session) :
    (∀ query : CanonQuery, session.SettledBy query) ∧
    (∀ units, FirstUse Request.usesDecompile start session units →
      ∀ tycon : TyconRef, tycon.Held session.units →
        ((session.decompileRulesNow.rule? session.units tycon).isSome ↔
          ∃ candidate rule, DecompileRules.Listed session.tycons
              (session.config.supports .structTuples) candidate rule ∧
            candidate.Same tycon ∧ candidate.canDeref units)) ∧
    (session.config.compilingStdLib = false →
      ∀ units, FirstUse Request.usesImprove start session units →
        ∀ tycon : TyconRef, tycon.Held session.units →
          ((session.improveRulesNow.kind? session.units tycon).isSome ↔
            ∃ kind host, session.tycons.hostPrim? kind = some host ∧
              ¬ host.Same (session.tycons.corePrim kind) ∧ host.Same tycon ∧
                host.canDeref units)) := by
  have fresh := created.fresh
  refine ⟨fresh.settledBy run, ?decompile, ?improve⟩
  case decompile => exact fun units use tycon held => fresh.isSome_rule?_iff use held
  case improve => exact fun byStamp units use tycon held => fresh.isSome_kind?_iff use byStamp held

section Interleaved

variable {tycons : WellKnownTycons} {scope : TyconScope} {interner : Interner}
  {library : CompilationUnit} {known : WellKnown} {defined : List WellKnown}

/-- Of the well-known types exactly these are defined. The type of runtime types is left out: it is
one type under two spellings. -/
def DefinedAmong (tycons : WellKnownTycons) (store : UnitStore) (defined : List WellKnown) : Prop :=
  ∀ known tycon, known ≠ .core .systemType → known ≠ .host .systemType →
    tycons.at? known = some tycon → (tycon.canDeref store ↔ known ∈ defined)

theorem exists_quiet_defining_known (located : tycons.Located scope interner)
    (formed : interner.WellFormed)
    (placed : ∀ known tycon, tycons.at? known = some tycon →
      tycon = .inUnit library tycon.path tycon.name)
    (isKnown : tycons.at? known = some tycon) (session : Session)
    (before : DefinedAmong tycons session.units defined) :
    ∃ next, (∀ uses, (∀ unit spec, uses (.define unit spec) = false) →
      QuietRun uses session next) ∧ DefinedAmong tycons next.units (known :: defined) := by
  have own : ∀ one ∈ [tycon], one = .inUnit library one.path one.name := by
    simpa only [List.forall_mem_singleton] using placed known tycon isKnown
  obtain ⟨next, quiet, more⟩ := exists_quiet_defining library own session
  refine ⟨next, quiet, ?_⟩
  intro other reference notCore notHost isOther
  have same : tycon.Same reference ↔ other = known := by
    constructor
    · intro same
      rcases located.eq_of_same formed isKnown isOther same with one | ⟨_, one⟩ | ⟨_, one⟩
      · exact one.symm
      · exact absurd one notHost
      · exact absurd one notCore
    · rintro rfl
      cases isKnown.symm.trans isOther
      exact TyconRef.same_refl tycon
  rw [more reference (placed other reference isOther),
    before other reference notCore notHost isOther, List.mem_cons, or_comm, ← same]
  simp only [List.mem_singleton, exists_eq_left]

theorem units_after_canonicalize (session : Session) (query : CanonQuery) :
    (session.after (Request.canonicalize query).perform).units = session.units := by
  rw [after_canonicalize]
  exact (keepsUnits_answered session query).units

/-- Functions and the host's `Int32` are defined before anything is asked, pairs between the first
queries of the two passes, and `Int64` after both. -/
theorem exists_interleaved :
    ∃ (start session : Session) (first second : UnitStore), start.Created ∧ start.config = {} ∧
      FirstUse Request.usesDecompile start session first ∧
      FirstUse Request.usesImprove start session second ∧
      DefinedAmong start.tycons first [.host .int32, .named .func] ∧
      DefinedAmong start.tycons second [.tuple .reference 1, .host .int32, .named .func] ∧
      DefinedAmong start.tycons session.units
        [.host .int64, .tuple .reference 1, .host .int32, .named .func] := by
  obtain ⟨start, library, created, config, undefined, host, core⟩ := exists_in_library
  have fresh := created.fresh
  have located := fresh.located
  have placed : ∀ known tycon, start.tycons.at? known = some tycon →
      tycon = .inUnit library tycon.path tycon.name := by
    intro known tycon entered
    obtain ⟨_, _, finds⟩ := located.finds_at entered
    exact finds.inUnit host core
  have nothing : DefinedAmong start.tycons start.units [] := by
    intro known tycon _ _ entered
    rw [placed known tycon entered, iff_false_right List.not_mem_nil]
    exact TyconRef.not_canDeref_of_undefined undefined (TyconRef.held_named ..)
  have defining {known : WellKnown} {tycon : TyconRef} {defined : List WellKnown}
      (entered : start.tycons.at? known = some tycon) (session : Session)
      (before : DefinedAmong start.tycons session.units defined) :=
    exists_quiet_defining_known located fresh.interner placed entered session before
  obtain ⟨int32, isInt32⟩ := located.exists_host (show PrimitiveKind.int32 ≠ .unit from nofun)
  obtain ⟨int64, isInt64⟩ := located.exists_host (show PrimitiveKind.int64 ≠ .unit from nofun)
  have isFunc : start.tycons.at? (.named .func) = _ := rfl
  have isPair : start.tycons.at? (.tuple .reference 1) = _ := rfl
  have isHost32 : start.tycons.at? (.host .int32) = some int32 := isInt32
  have isHost64 : start.tycons.at? (.host .int64) = some int64 := isInt64
  obtain ⟨one, toOne, definedOne⟩ := defining isFunc start nothing
  obtain ⟨two, toTwo, definedTwo⟩ := defining isHost32 one definedOne
  let decompile : CanonQuery := .decompileTycon (start.tycons.get .func) [] .ambivalent
  rw [← units_after_canonicalize two decompile] at definedTwo
  obtain ⟨three, toThree, definedThree⟩ := defining isPair _ definedTwo
  let improve : CanonQuery := .improveTycon int32 [] .ambivalent
  rw [← units_after_canonicalize three improve] at definedThree
  obtain ⟨session, toSession, definedSession⟩ := defining isHost64 _ definedThree
  rw [units_after_canonicalize] at definedTwo definedThree
  have silentDecompile : ∀ unit spec, Request.usesDecompile (.define unit spec) = false :=
    fun _ _ => rfl
  have silentImprove : ∀ unit spec, Request.usesImprove (.define unit spec) = false :=
    fun _ _ => rfl
  have since : Run (three.after (Request.canonicalize improve).perform) session :=
    (toSession _ silentImprove).run
  have sinceDecompile : Run (two.after (Request.canonicalize decompile).perform) session :=
    ((toThree _ silentImprove).run.tail ⟨_, rfl⟩).trans since
  have useDecompile : FirstUse Request.usesDecompile start session two.units :=
    .passed ((toOne _ silentDecompile).trans (toTwo _ silentDecompile)) _ rfl sinceDecompile
  have toAsked := (toOne _ silentImprove).trans (toTwo _ silentImprove)
  have useImprove : FirstUse Request.usesImprove start session three.units :=
    .passed ((toAsked.tail ⟨.canonicalize decompile, rfl, rfl⟩).trans (toThree _ silentImprove)) _
      rfl since
  exact ⟨start, session, two.units, three.units, created, config, useDecompile, useImprove,
    definedTwo, definedThree, definedSession⟩

end Interleaved

/-- Functions and `Int32` have rules, as they were defined before the rules were first used. Pairs
and `Int64` have none, although they are defined by now. -/
theorem answers_settled_after_queries :
    ∃ (start session : Session) (int32 int64 : TyconRef), start.Created ∧ Run start session ∧
      session.config.compilingStdLib = false ∧
      session.tycons.hostPrim? .int32 = some int32 ∧ session.tycons.hostPrim? .int64 = some int64 ∧
      (∀ query : CanonQuery, session.SettledBy query) ∧
      (session.decompileRulesNow.rule? session.units (session.tycons.get .func)).isSome ∧
      (session.tycons.tuples.references.get 1).canDeref session.units ∧
      ¬ (session.decompileRulesNow.rule? session.units
        (session.tycons.tuples.references.get 1)).isSome ∧
      (session.improveRulesNow.kind? session.units int32).isSome ∧
      int64.canDeref session.units ∧
      ¬ (session.improveRulesNow.kind? session.units int64).isSome := by
  obtain ⟨start, session, first, second, created, config, useDecompile, useImprove, amongFirst,
    amongSecond, amongNow⟩ := exists_interleaved
  have fresh := created.fresh
  have run := useDecompile.run
  have located := fresh.located_run run
  rw [← run.evolves.tycons] at amongFirst amongSecond amongNow
  have compiled : session.config.compilingStdLib = false := by rw [run.evolves.config, config]
  obtain ⟨int32, isInt32⟩ := located.exists_host (show PrimitiveKind.int32 ≠ .unit from nofun)
  obtain ⟨int64, isInt64⟩ := located.exists_host (show PrimitiveKind.int64 ≠ .unit from nofun)
  have held (known : WellKnown) {tycon : TyconRef}
      (entered : session.tycons.at? known = some tycon) (store : UnitStore) : tycon.Held store := by
    obtain ⟨_, _, finds⟩ := located.finds_at entered
    exact finds.toLookedUp.held store
  obtain ⟨settled, rules, kinds⟩ := answers_settled created run
  refine ⟨start, session, int32, int64, created, run, compiled, isInt32, isInt64, settled,
    ?function, ?pairNow, ?pair, ?int32, ?int64Now, ?int64⟩
  case function =>
    have defined := (amongFirst (.named .func) _ nofun nofun rfl).mpr (by simp)
    have rule := rules first useDecompile _ (held (.named .func) rfl session.units)
    exact rule.mpr ⟨_, _, .function, TyconRef.same_refl _, defined⟩
  case pairNow => exact (amongNow (.tuple .reference 1) _ nofun nofun rfl).mpr (by simp)
  case pair =>
    have heldPair (store : UnitStore) : (session.tycons.tuples.references.get 1).Held store :=
      held (.tuple .reference 1) rfl store
    rw [rules first useDecompile _ (heldPair session.units)]
    rintro ⟨candidate, rule, listed, same, defined⟩
    have early := (same.canDeref_iff (fresh.unitsWellFormed useDecompile)
      (listed.held located first) (heldPair first)).mp defined
    simpa using (amongFirst (.tuple .reference 1) _ nofun nofun rfl).mp early
  case int32 =>
    have defined := (amongSecond (.host .int32) _ nofun nofun isInt32).mpr (by simp)
    have different := located.hostPrim_not_corePrim fresh.interner isInt32 nofun
    have kind := kinds compiled second useImprove int32 (held (.host .int32) isInt32 session.units)
    exact kind.mpr ⟨.int32, int32, isInt32, different, TyconRef.same_refl int32, defined⟩
  case int64Now => exact (amongNow (.host .int64) _ nofun nofun isInt64).mpr (by simp)
  case int64 =>
    have heldInt64 := held (.host .int64) isInt64
    rw [kinds compiled second useImprove int64 (heldInt64 session.units)]
    rintro ⟨kind, host, recorded, _, same, defined⟩
    have early := (same.canDeref_iff (fresh.unitsWellFormed useImprove)
      (held (.host kind) recorded second) (heldInt64 second)).mp defined
    simpa using (amongSecond (.host .int64) _ nofun nofun isInt64).mp early

end TypeEnv.Session
