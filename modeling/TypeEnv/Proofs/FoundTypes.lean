import TypeEnv.Proofs.DottedNames
import TypeEnv.Proofs.TyconIdentity

namespace TypeEnv

namespace TyconScope

variable {space simple : String} {path : NamespacePath} {name : Name} {interner : Interner}

section Bootstrap

variable {scope : TyconScope} (compiling : scope.compilingStdLib = true)

include compiling

/-- While the standard library is compiled, a name means one type, wherever it is looked for. -/
theorem core_eq_host (space simple : String) :
    scope.core space simple = scope.host space simple := by
  simp only [core, host, if_pos compiling]

theorem host_of_located (located : interner.Locates space simple path name) :
    scope.host space simple interner = .ok (.inUnit scope.localUnit path name) interner := by
  simp only [host, if_pos compiling, bind, EStateM.bind,
    Interner.internPath_of_known located.path, Interner.intern_of_get? located.name, pure,
    EStateM.pure]

end Bootstrap

end TyconScope

namespace Session

variable {session next later start : Session} {setup : SessionSetup} {space simple : String}
  {path : NamespacePath} {name : Name} {tycon : TyconRef} {definition : TypeDef}
  {unit? : NamespacePath → Name → Option CompilationUnit}

structure KeepsScope (before next : Session) : Prop where
  resolver : next.resolver = before.resolver
  coreUnit : next.coreUnit = before.coreUnit
  interner : before.interner.Extends next.interner

theorem KeepsScope.trans {before middle : Session} (first : KeepsScope before middle)
    (second : KeepsScope middle next) : KeepsScope before next :=
  ⟨second.resolver.trans first.resolver, second.coreUnit.trans first.coreUnit,
    first.interner.trans second.interner⟩

theorem KeepsScope.refl (session : Session) : KeepsScope session session :=
  ⟨rfl, rfl, .refl session.interner⟩

theorem Step.keepsScope (step : Step session next) : KeepsScope session next := by
  obtain ⟨request, rfl⟩ := step
  have alters := alters_after request session
  have extended := alters.extends
  generalize session.after request.perform = next at alters extended ⊢
  cases alters with
  | answered query =>
      obtain ⟨_, _, _, same⟩ := exists_answered session query
      rw [same] at extended ⊢
      exact ⟨rfl, rfl, extended⟩
  | _ => exact ⟨rfl, rfl, extended⟩

theorem Run.keepsScope (run : Run session later) : KeepsScope session later :=
  run.keeps KeepsScope .refl .trans Step.keepsScope

def leadsNow (session : Session) (unit? : Option CompilationUnit) (path : NamespacePath)
    (name : Name) (full : String) : Except SessionError TypeDef :=
  match unit? with
  | none => .error (.deferredResolution (full ++ " not found"))
  | some unit =>
    match session.units.lookup unit.id path name with
    | some definition => .ok definition
    | none => .error (.typeNotFound full (session.interner.text unit.name))

/-- The look-up gives a reference to the type that is asked for, of this unit. Followed after any
further requests, it leads to what the unit has then, and once it has led to a definition it always
leads there. -/
def LeadsTo (session : Session) (find : SessionM TyconRef) (space simple : String)
    (unit? : NamespacePath → Name → Option CompilationUnit) : Prop :=
  ∃ tycon path name, session.outcome find = .ok tycon ∧
    (session.after find).interner.Locates space simple path name ∧
    ∀ more, let later := (session.after find).served more
      later.deref tycon =
        later.leadsNow (unit? path name) path name (Dotted.qualified space simple) ∧
      ∀ definition, later.deref tycon = .ok definition →
        ∀ further, (later.served further).deref tycon = .ok definition

theorem deref_eq_ok_iff :
    session.deref tycon = .ok definition ↔ tycon.definition? session.units = some definition := by
  cases tycon with
  | direct own => simp [deref, TyconRef.deref, TyconRef.definition?]
  | named unit path name =>
      cases unit with
      | deferred missing =>
          simp [deref, TyconRef.deref, TyconRef.definition?, UnitRef.force, UnitRef.unit?, bind,
            Except.bind]
      | found unit =>
          simp only [deref, TyconRef.deref, TyconRef.definition?, UnitRef.force, UnitRef.unit?,
            bind, Except.bind, Option.bind_some]
          cases session.units.lookup unit.id path name <;> simp [pure, Except.pure]

theorem deref_served (wellFormed : session.units.WellFormed)
    (leads : session.deref tycon = .ok definition) (requests : List Request) :
    (session.served requests).deref tycon = .ok definition := by
  have reaches := (run_served requests session).evolves.units
  rw [deref_eq_ok_iff] at leads ⊢
  exact TyconRef.definition?_mono reaches wellFormed leads

theorem deref_eq_leadsNow {interner : Interner} {unit? : Option CompilationUnit}
    (located : interner.Locates space simple path name) (wellFormed : interner.WellFormed)
    (grown : interner.Extends later.interner) :
    later.deref (.named (.ofUnit? unit? path name interner) path name) =
      later.leadsNow unit? path name (Dotted.qualified space simple) := by
  cases unit? with
  | none =>
      rw [leadsNow, ← located.qualify_eq wellFormed]
      rfl
  | some unit =>
      have text := (located.mono grown.toGrows).qualify_eq (grown.wellFormed wellFormed)
      rw [leadsNow, ← text]
      rfl

theorem interns_run {α : Type} (action : Interning α) (session : Session) :
    interns action session =
      match action session.interner with
      | .ok value interner => .ok value { session with interner }
      | .error shard interner => .error (fullShard shard) { session with interner } := by
  simp only [interns, reportFull, EStateM.adaptExcept]
  cases action session.interner <;> rfl

theorem outOfRoom_or_references {find : Interning TyconRef}
    (wellFormed : session.interner.WellFormed) (looks : find = TyconScope.lookup unit? space simple) :
    session.OutOfRoom (interns find) ∨
    ∃ tycon, session.outcome (interns find) = .ok tycon ∧
      (session.after (interns find)).interner.WellFormed ∧
      (session.after (interns find)).units = session.units ∧
      TyconScope.References space simple unit? tycon (session.after (interns find)).interner := by
  have stops := TyconScope.stops_lookup unit? session.interner space simple
  have references := TyconScope.ensures_lookup unit? session.interner space simple
  rw [← looks] at stops references
  have run := interns_run find session
  cases found : find session.interner with
  | error shard after =>
      rw [found] at run
      exact Or.inl (outOfRoom_of_refused stops wellFormed found run)
  | ok tycon after =>
      obtain ⟨grown, refers⟩ := references tycon after found
      rw [found] at run
      have gives : session.outcome (interns find) = .ok tycon := by
        rw [outcome, run]
      have leaves : session.after (interns find) = { session with interner := after } := by
        rw [Session.after, run]
      rw [leaves]
      exact Or.inr ⟨tycon, gives, grown.wellFormed wellFormed, rfl, refers⟩

theorem outOfRoom_or_leadsTo {find : Interning TyconRef} (interner : session.interner.WellFormed)
    (units : session.units.WellFormed) (looks : find = TyconScope.lookup unit? space simple) :
    session.OutOfRoom (interns find) ∨ session.LeadsTo (interns find) space simple unit? := by
  refine (outOfRoom_or_references interner looks).imp_right ?_
  rintro ⟨tycon, found, wellFormed, unchanged, path, name, located, rfl⟩
  refine ⟨_, path, name, found, located, fun more => ⟨?_, ?_⟩⟩
  · have kept := (run_served more (session.after (interns find))).keepsScope
    exact deref_eq_leadsNow located wellFormed kept.interner
  · intro definition leads
    have reaches := (run_served more (session.after (interns find))).evolves.units
    exact deref_served (reaches.wellFormed (unchanged ▸ units)) leads

section Created

variable {before after : Interner}

structure SetUp (setup : SessionSetup) (session : Session) : Prop where
  compiling : session.scope.compilingStdLib = setup.config.compilingStdLib
  host : session.scope.hostUnit? = fun path name =>
    if setup.config.compilingStdLib then some setup.localUnit
    else setup.resolver.resolve session.units path name false
  core : session.scope.coreUnit? =
    if setup.config.compilingStdLib then some setup.localUnit else setup.stdLib

theorem setUp_of_run (reached : before.Reachable) (outcome : create setup before = .ok start after)
    (run : Run start session) : session.SetUp setup := by
  have built := build_of_create outcome
  have follows := ensures_build_setup start after built
  obtain ⟨_, config, _, resolver, _⟩ := ensures_build reached.wellFormed start after built
  have evolves := run.evolves
  have kept := run.keepsScope
  constructor
  case compiling => rw [scope, evolves.config, config]
  case host =>
    funext path name
    rw [TyconScope.hostUnit?, scope, evolves.config, evolves.localUnit, kept.resolver, config,
      follows.localUnit, resolver]
  case core =>
    rw [TyconScope.coreUnit?, scope, evolves.config, evolves.localUnit, kept.coreUnit, config,
      follows.localUnit]
    simp only [follows.coreUnit]
    split <;> rfl

theorem findTycon_again (wellFormed : session.interner.WellFormed)
    (compiling : session.scope.compilingStdLib = true)
    (found : session.outcome (findHostTycon space simple) = .ok tycon) (more : List Request) :
    let later := (session.after (findHostTycon space simple)).served more
    later.outcome (findHostTycon space simple) = .ok tycon ∧
      later.outcome (findCoreTycon space simple) = .ok tycon := by
  intro later
  have references := outOfRoom_or_references wellFormed (session.scope.host_eq_lookup space simple)
  rcases references with ⟨shard, failed, _⟩ | ⟨given, gives, _, _, path, name, located, rfl⟩
  · cases found.symm.trans failed
  · cases found.symm.trans gives
    have first : Run session (session.after (findHostTycon space simple)) :=
      .single ⟨.findHostTycon space simple, (after_discard _ _).symm⟩
    have past := run_served more (session.after (findHostTycon space simple))
    have evolves := Run.evolves (first.trans past)
    have own : session.scope.hostUnit? path name = some session.localUnit := if_pos compiling
    have compilingLater : later.scope.compilingStdLib = true := by
      rw [scope, evolves.config]
      exact compiling
    have known : later.interner.Locates space simple path name :=
      located.mono past.keepsScope.interner.toGrows
    have run := interns_run (later.scope.host space simple) later
    rw [TyconScope.host_of_located compilingLater known] at run
    have host : later.outcome (interns (later.scope.host space simple)) =
        .ok (.inUnit session.localUnit path name) := by
      rw [outcome, run, ← evolves.localUnit]
      rfl
    rw [own]
    refine ⟨host, ?_⟩
    change later.outcome (interns (later.scope.core space simple)) = _
    rw [TyconScope.core_eq_host compilingLater]
    exact host

end Created

/-- Whatever was asked and defined before, a look-up of a type by name gives a reference to the unit
that is known then: the unit under compilation while that is the standard library, and then it does
not matter where the type is looked for; else the unit that the resolver names for a host type, and
the loaded library for one of the standard library. -/
theorem found_types_deref {before after : Interner} (units : setup.units.Reachable)
    (reached : before.Reachable) (outcome : create setup before = .ok start after)
    (requests : List Request) (space simple : String) :
    let session := start.served requests
    (session.OutOfRoom (findHostTycon space simple) ∨
      session.LeadsTo (findHostTycon space simple) space simple fun path name =>
        if setup.config.compilingStdLib then some setup.localUnit
        else setup.resolver.resolve session.units path name false) ∧
    (session.OutOfRoom (findCoreTycon space simple) ∨
      session.LeadsTo (findCoreTycon space simple) space simple fun _ _ =>
        if setup.config.compilingStdLib then some setup.localUnit else setup.stdLib) ∧
    (setup.config.compilingStdLib = true →
      findCoreTycon space simple session = findHostTycon space simple session ∧
      ∀ tycon, session.outcome (findHostTycon space simple) = .ok tycon → ∀ more,
        let later := (session.after (findHostTycon space simple)).served more
        later.outcome (findHostTycon space simple) = .ok tycon ∧
          later.outcome (findCoreTycon space simple) = .ok tycon) ∧
    -- the name of a unit in a message stays what it is
    (∀ (unit : CompilationUnit) text, session.interner.get? text = some unit.name →
      ∀ more, (session.served more).interner.text unit.name = text) := by
  intro session
  have created : start.Created := ⟨setup, before, after, units, reached, outcome⟩
  have run : Run start session := run_served requests start
  have setUp := setUp_of_run reached outcome run
  have interner := run.keepsScope.interner.wellFormed created.fresh.interner
  have store := run.evolves.units.wellFormed created.fresh.units.wellFormed
  refine ⟨?_, ?_, ?_, ?_⟩
  · rw [← setUp.host]
    exact outOfRoom_or_leadsTo interner store (session.scope.host_eq_lookup space simple)
  · rw [← setUp.core]
    exact outOfRoom_or_leadsTo interner store (session.scope.core_eq_lookup space simple)
  · intro bootstrap
    have compiling := setUp.compiling.trans bootstrap
    have same := TyconScope.core_eq_host compiling space simple
    refine ⟨?_, fun tycon found more => findTycon_again interner compiling found more⟩
    change interns (session.scope.core space simple) session = _
    rw [same]
    rfl
  · intro unit text known more
    have grown := (run_served more session).keepsScope.interner
    exact (grown.wellFormed interner).text_of_get? (Interner.get?_mono grown.toGrows known)

theorem exists_outcome_interns {α : Type} {action : Interning α} {count : Nat}
    (stops : StopsWhenFull id session.interner count action)
    (room : session.interner.Room count) :
    ∃ value, session.outcome (interns action) = .ok value := by
  have enough : session.interner.Room (count + 0) := room
  obtain ⟨value, after, finished, _⟩ := stops.exists_ok enough
  have run := interns_run action session
  rw [finished] at run
  exact ⟨value, by rw [outcome, run]⟩

theorem units_after_interns {α : Type} (action : Interning α) (session : Session) :
    (session.after (interns action)).units = session.units := by
  rw [Session.after, interns_run]
  cases action session.interner <;> rfl

theorem exists_with_library : ∃ (setup : SessionSetup) (start : Session) (after : Interner)
    (library : CompilationUnit), setup.units.Reachable ∧ create setup .new = .ok start after ∧
      setup.config.compilingStdLib = false ∧ setup.resolver = .table [] ∧
      setup.stdLib = some library ∧ start.units.definitions = [] ∧
      start.interner.Room spareRoom ∧ start.interner.get? "Lumen" = some library.name := by
  have wellFormed : Interner.new.WellFormed := Interner.wellFormed_fresh _
  have known : (Interner.new.get? "Lumen").isSome :=
    ((Interner.records_fresh _).known "Lumen").mpr (by decide)
  obtain ⟨lumen, named⟩ := Option.isSome_iff_exists.mp known
  let own := ({} : UnitStore).addUnit Name.empty .compiled
  let library := own.2.addUnit lumen .referenced
  let setup : SessionSetup :=
    { units := library.2, localUnit := own.1, stdLib := some library.1, resolver := .table [] }
  have units : setup.units.Reachable :=
    .tail (.single (.addUnit Name.empty .compiled)) (.addUnit lumen .referenced)
  have accepted : setup.config.validate = .ok () := rfl
  have room : Interner.new.Room (buildRoom + spareRoom) :=
    Interner.room_fresh _ _ (by decide +kernel)
  obtain ⟨start, after, outcome, left⟩ := exists_create accepted wellFormed room
  have built := build_of_create outcome
  have grown := (stops_build wellFormed).extends_of_ok built
  obtain ⟨_, _, kept, _, rfl⟩ := ensures_build wellFormed start after built
  have undefined : start.units.definitions = [] := by
    rw [kept]
    rfl
  exact ⟨setup, start, start.interner, library.1, units, outcome, rfl, rfl, rfl, undefined, left,
    Interner.get?_mono grown.toGrows named⟩

/-- A name with dots at odd places, beside an empty library: a host type is missing for good, a type
of the library until the library defines it. -/
theorem found_types_deref_odd_name :
    ∃ (setup : SessionSetup) (start : Session) (after : Interner) (library : CompilationUnit)
      (host core : TyconRef) (more : List Request) (definition : TypeDef),
      setup.units.Reachable ∧ Interner.new.Reachable ∧ create setup .new = .ok start after ∧
      setup.config.compilingStdLib = false ∧ setup.stdLib = some library ∧
      start.outcome (findHostTycon ".A" "") = .ok host ∧
      (start.after (findHostTycon ".A" "")).deref host =
        .error (.deferredResolution ".A. not found") ∧
      start.outcome (findCoreTycon ".A" "") = .ok core ∧
      (start.after (findCoreTycon ".A" "")).deref core = .error (.typeNotFound ".A." "Lumen") ∧
      ((start.after (findCoreTycon ".A" "")).served more).deref core = .ok definition := by
  obtain ⟨setup, start, after, library, units, outcome, compiling, table, loaded, undefined, room,
    named⟩ := exists_with_library
  have reachable : Interner.new.Reachable := .fresh _
  have fits : (Dotted.segments ".A").length + 1 ≤ spareRoom := by decide +kernel
  obtain ⟨hostFound, coreFound, _, texts⟩ := found_types_deref units reachable outcome [] ".A" ""
  simp only [compiling, Bool.false_eq_true, if_false, loaded, table] at hostFound coreFound
  have hostGiven : ∃ tycon, start.outcome (findHostTycon ".A" "") = .ok tycon :=
    exists_outcome_interns (start.scope.stops_host _ ".A" "") (room.weaken fits)
  have coreGiven : ∃ tycon, start.outcome (findCoreTycon ".A" "") = .ok tycon :=
    exists_outcome_interns (start.scope.stops_core _ ".A" "") (room.weaken fits)
  obtain ⟨_, hostGives⟩ := hostGiven
  obtain ⟨_, coreGives⟩ := coreGiven
  rcases hostFound with ⟨_, failed, _⟩ | ⟨host, hostPath, hostName, hostIs, _, hostLeads⟩
  · cases hostGives.symm.trans failed
  rcases coreFound with ⟨_, failed, _⟩ | ⟨core, path, name, coreIs, _, coreLeads⟩
  · cases coreGives.symm.trans failed
  let next := start.after (findCoreTycon ".A" "")
  have nothing : next.units.lookup library.id path name = none := by
    have unchanged : next.units = start.units :=
      units_after_interns (start.scope.core ".A" "") start
    rw [unchanged]
    exact UnitStore.lookup_of_undefined undefined library.id path name
  have label : next.interner.text library.name = "Lumen" := by
    have text := texts library "Lumen" named [.findCoreTycon ".A" ""]
    rw [served, List.foldl_cons, Request.perform, after_discard] at text
    exact text
  have missing : next.deref core = .error (.typeNotFound ".A." "Lumen") := by
    refine (coreLeads []).1.trans ?_
    change next.leadsNow (some library) path name ".A." = _
    simp only [leadsNow, nothing, label]
  let spec : TypeSpec := { path := path, name := name, kind := .classType }
  have defined : (next.served [.define library.id spec]).deref core =
      .ok (next.units.define library.id spec).1 := by
    have held : (next.served [.define library.id spec]).units.lookup library.id path name =
        some (next.units.define library.id spec).1 := next.units.lookup_define_self library.id spec
    refine (coreLeads [.define library.id spec]).1.trans ?_
    change (next.served [.define library.id spec]).leadsNow (some library) path name ".A." = _
    simp only [leadsNow, held]
  exact ⟨setup, start, after, library, host, core, [.define library.id spec], _, units, reachable,
    outcome, compiling, loaded, hostIs, (hostLeads []).1, coreIs, missing, defined⟩

end Session

end TypeEnv
