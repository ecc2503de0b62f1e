import TypeEnv.Proofs.Catalogue
import TypeEnv.Proofs.Intrinsics
import TypeEnv.Proofs.Units
import TypeEnv.Proofs.WellKnown
import TypeEnv.Session.Basic

namespace TypeEnv

section Failures

variable {σ α : Type} {before : σ} {post : α → σ → Prop}

theorem ensures_reportFull {before : Interner} {action : Interning α}
    {post : α → Interner → Prop} (ensured : Ensures before action post) :
    Ensures before (Session.reportFull action) post := by
  intro value after outcome
  apply ensured
  simp only [Session.reportFull, EStateM.adaptExcept] at outcome
  cases result : action before with
  | ok made state =>
      rw [result] at outcome
      cases outcome
      rfl
  | error full state =>
      rw [result] at outcome
      cases outcome

theorem ensures_orBreach (result : Except Breach α) :
    Ensures before (Session.orBreach result) fun value after =>
      result = .ok value ∧ after = before := by
  intro value after outcome
  cases result with
  | ok made =>
      cases outcome
      exact ⟨rfl, rfl⟩
  | error breach => cases outcome

def Session.fullShard (full : ShardFull) : Failure := .breach (.shardFull full)

theorem stops_reportFull {before : Interner} {count : Nat} {action : Interning α}
    (stops : StopsWhenFull id before count action) :
    StopsWhenFull Session.fullShard before count (Session.reportFull action) := by
  simp only [StopsWhenFull, Session.reportFull, EStateM.adaptExcept] at stops ⊢
  cases outcome : action before with
  | ok value after =>
      rw [outcome] at stops
      exact stops
  | error failure after =>
      rw [outcome] at stops
      refine ⟨stops.1, stops.2.1, fun wellFormed => ?_⟩
      rcases stops.2.2 wellFormed with ⟨full, same, exhausted⟩
      exact ⟨full, congrArg Session.fullShard same, exhausted⟩

theorem stops_orBreach {before : Interner} {count : Nat} {result : Except Breach α}
    (succeeds : ∃ value, result = .ok value) :
    StopsWhenFull Session.fullShard before count (Session.orBreach result) := by
  rcases succeeds with ⟨value, rfl⟩
  exact stopsWhenFull_pure value

end Failures

namespace Session

variable {setup : SessionSetup} {before : Interner}

theorem stops_coreUnitOf (setup : SessionSetup) (before : Interner) :
    StopsWhenFull id before 1 (coreUnitOf setup) := by
  simp only [coreUnitOf]
  split
  · exact stopsWhenFull_pure _
  · split
    · exact stopsWhenFull_pure _
    · exact (Interner.stops_intern before _).bind_pure _

theorem ensures_makeIntrinsic (tycons : WellKnownTycons) (prims : PrimitiveTypes)
    (id : IntrinsicId) (before : Interner) :
    Ensures before (makeIntrinsic tycons prims id) fun value after =>
      before.Extends after ∧ value.MadeFrom id.spec tycons prims after := by
  refine ensures_bind (ensures_reportFull (id.spec.ensures_internNames before)) ?_
  intro names withNames spelled
  refine (ensures_orBreach _).weaken fun value after result => ?_
  rcases result with ⟨made, rfl⟩
  exact ⟨spelled.1, names, _, spelled.2, made⟩

theorem stops_makeIntrinsic (tycons : WellKnownTycons) (prims : PrimitiveTypes)
    (id : IntrinsicId) (before : Interner) :
    StopsWhenFull fullShard before IntrinsicId.nameRoom (makeIntrinsic tycons prims id) := by
  have naming := (stops_reportFull (stops_internNames id.spec before)).weaken id.nameRoom_spec
  refine naming.bind_free fun names withNames outcome => ?_
  have spelled := ensures_reportFull (id.spec.ensures_internNames before) names withNames outcome
  exact stops_orBreach
    (IntrinsicSpec.exists_instantiate id.closed_spec (TyParam.length_of_placed spelled.2.placed))

def MadeIntrinsics (tycons : WellKnownTycons) (prims : PrimitiveTypes)
    (intrinsics : Table IntrinsicId Intrinsic) (interner : Interner) : Prop :=
  List.Forall₂ (fun (id : IntrinsicId) value => value.MadeFrom id.spec tycons prims interner)
    Enumerated.all intrinsics.entries

section MadeIntrinsics

variable {tycons : WellKnownTycons} {prims : PrimitiveTypes}
  {intrinsics : Table IntrinsicId Intrinsic} {interner : Interner}

theorem MadeIntrinsics.mono {after : Interner}
    (made : MadeIntrinsics tycons prims intrinsics before) (extended : before.Extends after) :
    MadeIntrinsics tycons prims intrinsics after :=
  made.imp fun _ _ entry => entry.mono extended

theorem ensures_intrinsics (tycons : WellKnownTycons) (prims : PrimitiveTypes)
    (before : Interner) :
    Ensures before (Table.ofFnM (makeIntrinsic tycons prims)) fun intrinsics after =>
      before.Extends after ∧ MadeIntrinsics tycons prims intrinsics after := by
  apply ensures_entries
  case lasting => exact fun _ _ _ _ extended entry => entry.mono extended
  case each => exact ensures_makeIntrinsic tycons prims

theorem MadeIntrinsics.keys_nodup (made : MadeIntrinsics tycons prims intrinsics interner)
    (wellFormed : interner.WellFormed) : (intrinsics.entries.map Intrinsic.key).Nodup := by
  have described : List.Forall₂ (fun spec value => value.Described spec interner)
      (IntrinsicId.all.map IntrinsicId.spec) intrinsics.entries :=
    List.forall₂_map_left_iff.mpr (made.imp fun _ _ entry => entry.described)
  rw [IntrinsicId.map_spec] at described
  exact IntrinsicSpec.keys_nodup wellFormed described IntrinsicSpec.keyTexts_nodup

theorem MadeIntrinsics.knownAmong_eq (made : MadeIntrinsics tycons prims intrinsics interner)
    (wellFormed : interner.WellFormed) :
    knownAmong intrinsics = .ok ⟨intrinsics.entries.filter (·.known)⟩ := by
  apply KnownTable.foldlM_insert
  rw [List.nil_append]
  exact (made.keys_nodup wellFormed).sublist (List.filter_sublist.map Intrinsic.key)

end MadeIntrinsics

/-- What building makes of a session, whatever its units are. -/
structure Built (session : Session) : Prop where
  interner : session.interner.WellFormed
  located : session.tycons.Located session.scope session.interner
  prims : session.prims.constructors = session.tycons.corePrims
  intrinsics :
    MadeIntrinsics session.tycons session.prims session.intrinsics session.interner
  known : session.known = ⟨session.intrinsics.entries.filter (·.known)⟩
  embedded : session.attributes.embedded = []
  decompileRules : session.decompileRules = none
  improveRules : session.improveRules = none

/-- The session as it is built, before anything is asked of it. -/
structure Fresh (session : Session) : Prop extends session.Built where
  units : session.units.Reachable

/-- A build that comes to an end, step after step. -/
inductive Builds (setup : SessionSetup) (before : Interner) : Session → Interner → Prop where
  | steps {coreUnit : UnitRef} {tycons : WellKnownTycons} {intrinsics : Table IntrinsicId Intrinsic}
    {known : KnownTable} {wellKnownAttributes : WellKnownAttributes}
    {attributes : AttributeCatalogue} {withCore withTycons withIntrinsics after : Interner}
    (core : coreUnitOf setup before = .ok coreUnit withCore)
    (located : WellKnownTycons.locate (setup.scope coreUnit) withCore = .ok tycons withTycons)
    (made : Table.ofFnM (makeIntrinsic tycons ⟨tycons.corePrims, setup.config.tracksNull⟩)
      withTycons = .ok intrinsics withIntrinsics)
    (distinct : knownAmong intrinsics = .ok known)
    (found : WellKnownAttributes.locate setup.resolver setup.units withIntrinsics =
      .ok (wellKnownAttributes, attributes) after) :
    Builds setup before
      { config := setup.config, interner := after, units := setup.units
        resolver := setup.resolver, localUnit := setup.localUnit, coreUnit, tycons
        prims := ⟨tycons.corePrims, setup.config.tracksNull⟩, intrinsics, known, attributes
        wellKnownAttributes, nextNode := firstFreeNode } after

theorem ensures_builds (setup : SessionSetup) (before : Interner) :
    Ensures before (build setup) (Builds setup before) := by
  refine ensures_bind (ensures_reportFull (ensures_outcome _)) fun coreUnit withCore core => ?_
  refine ensures_bind (ensures_reportFull (ensures_outcome _)) fun tycons withTycons located => ?_
  refine ensures_bind (ensures_outcome _) fun intrinsics withIntrinsics made => ?_
  refine ensures_bind (ensures_orBreach (knownAmong intrinsics)) fun known state distinct => ?_
  rcases distinct with ⟨distinct, rfl⟩
  refine ensures_bind (ensures_reportFull (ensures_outcome _)) fun attributes after found => ?_
  refine ensures_bind ensures_get fun interner state read => ?_
  rcases read with ⟨rfl, rfl⟩
  exact ensures_pure (.steps core located made distinct found)

theorem ensures_build (wellFormed : before.WellFormed) :
    Ensures before (build setup) fun session after =>
      session.Built ∧ session.config = setup.config ∧ session.units = setup.units ∧
        session.resolver = setup.resolver ∧ session.interner = after := by
  refine (ensures_builds setup before).weaken fun session after builds => ?_
  cases builds with
  | @steps _ tycons _ _ _ _ withCore withTycons withIntrinsics _ core located made distinct found =>
      have cores := (stops_coreUnitOf setup before).extends_of_ok core
      have tyconsFound := WellKnownTycons.ensures_locate _ withCore _ _ located
      have intrinsicsMade := ensures_intrinsics tycons _ withTycons _ _ made
      have attributesFound := WellKnownAttributes.ensures_locate setup.resolver setup.units
        withIntrinsics _ _ found
      have fromTycons := intrinsicsMade.1.trans attributesFound.1
      have formed := (cores.trans (tyconsFound.1.trans intrinsicsMade.1)).wellFormed wellFormed
      refine ⟨?_, rfl, rfl, rfl, rfl⟩
      constructor
      case interner => exact attributesFound.1.wellFormed formed
      case located => exact tyconsFound.2.mono fromTycons
      case prims => rfl
      case intrinsics => exact intrinsicsMade.2.mono attributesFound.1
      case known =>
        exact (Except.ok.inj ((intrinsicsMade.2.knownAmong_eq formed).symm.trans distinct)).symm
      case embedded => exact attributesFound.2
      case decompileRules => rfl
      case improveRules => rfl

theorem coreUnitOf_unit? :
    Ensures before (coreUnitOf setup) fun coreUnit _ => coreUnit.unit? =
      if setup.config.compilingStdLib then some setup.localUnit else setup.stdLib := by
  rw [coreUnitOf]
  split
  case isTrue => exact ensures_pure rfl
  case isFalse =>
    cases setup.stdLib with
    | some library => exact ensures_pure rfl
    | none =>
        refine ensures_bind (ensures_true _) fun name after _ => ?_
        exact ensures_pure rfl

structure FollowsSetup (setup : SessionSetup) (session : Session) : Prop where
  localUnit : session.localUnit = setup.localUnit
  tracksNull : session.prims.tracksNull = setup.config.tracksNull
  coreUnit : session.coreUnit.unit? =
    if setup.config.compilingStdLib then some setup.localUnit else setup.stdLib

theorem ensures_build_setup :
    Ensures before (build setup) fun session _ => FollowsSetup setup session := by
  refine (ensures_builds setup before).weaken fun session after builds => ?_
  cases builds with
  | steps core => exact ⟨rfl, rfl, coreUnitOf_unit? _ _ core⟩

theorem knownAmong_built (wellFormed : before.WellFormed) {coreUnit : UnitRef}
    {tycons : WellKnownTycons} {prims : PrimitiveTypes} {intrinsics : Table IntrinsicId Intrinsic}
    {withCore withTycons withIntrinsics : Interner}
    (foundCore : reportFull (coreUnitOf setup) before = .ok coreUnit withCore)
    (foundTycons : reportFull (WellKnownTycons.locate (setup.scope coreUnit)) withCore =
      .ok tycons withTycons)
    (made : Table.ofFnM (makeIntrinsic tycons prims) withTycons = .ok intrinsics withIntrinsics) :
    knownAmong intrinsics = .ok ⟨intrinsics.entries.filter (·.known)⟩ := by
  have cores := (stops_reportFull (stops_coreUnitOf setup before)).extends_of_ok foundCore
  have located := (stops_reportFull (WellKnownTycons.stops_locate _ withCore)).extends_of_ok
    foundTycons
  have described := ensures_intrinsics tycons prims withTycons intrinsics withIntrinsics made
  have grown := (cores.trans (located.trans described.1)).wellFormed wellFormed
  exact described.2.knownAmong_eq grown

def buildRoom : Nat :=
  1 + (WellKnownTycons.locateRoom + ((Enumerated.all : List IntrinsicId).length *
    IntrinsicId.nameRoom + (0 + (WellKnownAttributes.locateRoom + (0 + 0)))))

theorem stops_build (wellFormed : before.WellFormed) :
    StopsWhenFull fullShard before buildRoom (build setup) := by
  refine stopsWhenFull_bind (stops_reportFull (stops_coreUnitOf setup before)) ?_
  intro coreUnit withCore foundCore
  refine stopsWhenFull_bind (stops_reportFull (WellKnownTycons.stops_locate _ withCore)) ?_
  intro tycons withTycons foundTycons
  refine stopsWhenFull_bind
    (stopsWhenFull_ofFnM (stops_makeIntrinsic tycons _) withTycons) ?_
  intro intrinsics withIntrinsics foundIntrinsics
  have distinct := knownAmong_built wellFormed foundCore foundTycons foundIntrinsics
  refine stopsWhenFull_bind (stops_orBreach ⟨_, distinct⟩) ?_
  intro known state foundKnown
  refine stopsWhenFull_bind (stops_reportFull
    (WellKnownAttributes.stops_locate setup.resolver setup.units state)) ?_
  intro attributes after foundAttributes
  exact stopsWhenFull_bind stopsWhenFull_get fun _ _ _ => stopsWhenFull_pure _

theorem create_of_accepted (accepted : setup.config.validate = .ok ()) :
    create setup = build setup := by
  rw [create, accepted]

/-- What is created was built, since its configuration was accepted. -/
theorem build_of_create {interner after : Interner} {session : Session}
    (outcome : create setup interner = .ok session after) :
    build setup interner = .ok session after := by
  cases verdict : setup.config.validate with
  | ok => rwa [create_of_accepted verdict] at outcome
  | error reason =>
      rw [create, verdict] at outcome
      cases outcome

/-- With an accepted configuration and room in the interner, a session is built, and what room is
not needed is left. -/
theorem exists_create {interner : Interner} {extra : Nat}
    (accepted : setup.config.validate = .ok ()) (wellFormed : interner.WellFormed)
    (room : interner.Room (buildRoom + extra)) :
    ∃ session after, create setup interner = .ok session after ∧ after.Room extra := by
  rw [create_of_accepted accepted]
  exact (stops_build wellFormed).exists_ok room

/-- The session was built from units and an interner that a run led to. -/
def Created (session : Session) : Prop :=
  ∃ setup interner after, setup.units.Reachable ∧ interner.Reachable ∧
    create setup interner = .ok session after

theorem Created.fresh {session : Session} (created : session.Created) : session.Fresh := by
  rcases created with ⟨setup, interner, after, units, reached, outcome⟩
  have built := build_of_create outcome
  rcases ensures_build reached.wellFormed session after built with ⟨built, _, kept, _⟩
  exact ⟨built, kept ▸ units⟩

/-- The room that is left in a session for what is asked of it in a few requests. -/
def spareRoom : Nat := 100

theorem Created.tracksNull {session : Session} (created : session.Created) :
    session.prims.tracksNull = session.config.tracksNull := by
  rcases created with ⟨setup, interner, after, units, reached, outcome⟩
  have built := build_of_create outcome
  have tracks := (ensures_build_setup session after built).tracksNull
  rcases ensures_build reached.wellFormed session after built with ⟨_, kept, _⟩
  rw [tracks, kept]

theorem exists_spacious {setup : SessionSetup} (accepted : setup.config.validate = .ok ())
    (reached : setup.units.Reachable) :
    ∃ session : Session, session.Created ∧ session.config = setup.config ∧
      session.units = setup.units ∧ session.resolver = setup.resolver ∧
      FollowsSetup setup session ∧ session.interner.Room spareRoom := by
  have room : Interner.new.Room (buildRoom + spareRoom) :=
    Interner.room_fresh _ _ (by decide +kernel)
  have wellFormed : Interner.new.WellFormed := Interner.wellFormed_fresh _
  rcases exists_create accepted wellFormed room with ⟨session, after, outcome, left⟩
  have created : session.Created := ⟨setup, Interner.new, after, reached, .fresh _, outcome⟩
  have built := build_of_create outcome
  have follows := ensures_build_setup session after built
  rcases ensures_build wellFormed session after built with ⟨_, kept, units, resolver, rfl⟩
  exact ⟨session, created, kept, units, resolver, follows, left⟩

theorem exists_roomy {config : Config} (accepted : config.validate = .ok ()) :
    ∃ session : Session, session.Created ∧ session.config = config ∧
      session.units.definitions = [] ∧ session.resolver = .table [] ∧
      session.interner.Room spareRoom := by
  let added := ({} : UnitStore).addUnit Name.empty .compiled
  let setup : SessionSetup :=
    { config, units := added.2, localUnit := added.1, resolver := .table [] }
  have reached : setup.units.Reachable := .single (.addUnit Name.empty .compiled)
  have valid : setup.config.validate = .ok () := accepted
  rcases exists_spacious valid reached with ⟨session, created, kept, units, resolver, _, left⟩
  exact ⟨session, created, kept, congrArg UnitStore.definitions units, resolver, left⟩

theorem exists_in_library :
    ∃ (session : Session) (library : CompilationUnit), session.Created ∧ session.config = {} ∧
      session.units.definitions = [] ∧
      (∀ path name, session.scope.hostUnit? path name = some library) ∧
      session.scope.coreUnit? = some library := by
  let own := ({} : UnitStore).addUnit Name.empty .compiled
  let library := own.2.addUnit Name.empty .referenced
  let setup : SessionSetup :=
    { units := library.2, localUnit := own.1, stdLib := some library.1
      resolver := .always library.1 }
  have reached : setup.units.Reachable :=
    .tail (.single (.addUnit Name.empty .compiled)) (.addUnit Name.empty .referenced)
  have accepted : setup.config.validate = .ok () := rfl
  rcases exists_spacious accepted reached with
    ⟨session, created, config, units, resolver, follows, _⟩
  have compiled : ¬ session.scope.compilingStdLib = true := by
    rw [scope, config]
    exact Bool.false_ne_true
  refine ⟨session, library.1, created, config, congrArg UnitStore.definitions units, ?_, ?_⟩
  · intro path name
    rw [TyconScope.hostUnit?, if_neg compiled, scope, resolver]
    rfl
  · rw [TyconScope.coreUnit?, if_neg compiled, scope]
    exact follows.coreUnit

theorem exists_created {config : Config} (accepted : config.validate = .ok ()) :
    ∃ session : Session, session.Created ∧ session.config = config ∧
      session.units.definitions = [] := by
  rcases exists_roomy accepted with ⟨session, created, kept, nothing, _⟩
  exact ⟨session, created, kept, nothing⟩

end Session

end TypeEnv
