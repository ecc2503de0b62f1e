import TypeEnv.Proofs.CompiledTuples

namespace TypeEnv

namespace ImproveRules

variable {tycons : WellKnownTycons} {scope : TyconScope} {interner : Interner}
  {frozen store : UnitStore} {tycon : TyconRef}

def HostsDefined (tycons : WellKnownTycons) (store : UnitStore) : Prop :=
  ∀ kind host, tycons.hostPrim? kind = some host → host.canDeref store

theorem HostsDefined.constructors (defined : HostsDefined tycons store) :
    ∀ entry ∈ constructors tycons, entry.1.canDeref store := by
  intro entry member
  exact defined entry.2 entry.1 (mem_constructors.mp member).1

theorem kind?_byName_eq_byStamp (located : tycons.Located scope interner)
    (interned : interner.WellFormed) (wellFormed : frozen.WellFormed)
    (since : UnitStore.Reaches frozen store) (defined : HostsDefined tycons frozen)
    (held : tycon.Held store) :
    (build .byName tycons frozen).kind? store tycon =
      (build .byStamp tycons frozen).kind? store tycon := by
  have listed := constructors_held located frozen
  have agree := constructors_agree located interned
  exact (StampRules.find?_eq_find?_same wellFormed since listed held agree
    defined.constructors).symm

theorem kind?_byStamp_of_hostPrim (located : tycons.Located scope interner)
    (interned : interner.WellFormed) (wellFormed : frozen.WellFormed)
    (since : UnitStore.Reaches frozen store) (defined : HostsDefined tycons frozen)
    {kind : PrimitiveKind} {host : TyconRef} (recorded : tycons.hostPrim? kind = some host)
    (different : ¬ host.Same (tycons.corePrim kind)) :
    (build .byStamp tycons frozen).kind? store host = some kind := by
  have member := mem_constructors.mpr ⟨recorded, different⟩
  have held := constructors_held located store (host, kind) member
  have found := StampRules.find?_of_agree wellFormed since (constructors_held located frozen) held
    (constructors_agree located interned) member (TyconRef.same_refl host)
  exact found.trans (if_pos (defined kind host recorded))

end ImproveRules

namespace Session

variable {start session : Session} {store : UnitStore} {tycon : TyconRef}

theorem Fresh.hostPrim_inUnit (fresh : start.Fresh)
    (bootstrap : start.config.compilingStdLib = true) (run : Run start session)
    {kind : PrimitiveKind} {host : TyconRef}
    (recorded : session.tycons.hostPrim? kind = some host) :
    host = .inUnit session.localUnit host.path host.name := by
  rcases (fresh.located_run run).exists_hostName recorded with ⟨_, _, finds⟩
  rw [run.evolves.localUnit]
  exact finds.bootstrap bootstrap

theorem Fresh.exists_hostsDefined (fresh : start.Fresh)
    (bootstrap : start.config.compilingStdLib = true) :
    ∃ next, QuietRun Request.usesImprove start next ∧
      ImproveRules.HostsDefined next.tycons next.units := by
  let hosts := PrimitiveKind.all.filterMap start.tycons.hostPrim?
  have own : ∀ host ∈ hosts, host = .inUnit start.localUnit host.path host.name := by
    intro host member
    rcases List.mem_filterMap.mp member with ⟨kind, _, recorded⟩
    exact fresh.hostPrim_inUnit bootstrap .refl recorded
  obtain ⟨next, quiet, defined⟩ := exists_quiet_defining start.localUnit own start
  have silent : QuietRun Request.usesImprove start next := quiet _ fun _ _ => rfl
  refine ⟨next, silent, ?_⟩
  intro kind host recorded
  rw [silent.run.evolves.tycons] at recorded
  have listed : host ∈ hosts := List.mem_filterMap.mpr ⟨kind, Enumerated.mem_all kind, recorded⟩
  rw [defined host (own host listed)]
  exact Or.inr ⟨host, listed, TyconRef.same_refl host⟩

/-- If every host primitive is defined when the rules of improving are made, it does not matter
whether they compare references or stamps: every constructor is found to spell the same primitive,
right away and after anything that is defined later. -/
theorem improve_strategies_agree (created : start.Created) (run : Run start session)
    (defined : ImproveRules.HostsDefined session.tycons session.units)
    (since : UnitStore.Reaches session.units store) (held : tycon.Held store) :
    (ImproveRules.build .byName session.tycons session.units).kind? store tycon =
      (ImproveRules.build .byStamp session.tycons session.units).kind? store tycon := by
  have fresh := created.fresh
  have wellFormed := run.evolves.units.wellFormed fresh.units.wellFormed
  exact ImproveRules.kind?_byName_eq_byStamp (fresh.located_run run) fresh.interner wellFormed since
    defined held

/-- The host's integer, when one more unit was added after the rules were made, spells the integer of
the language either way. -/
theorem improve_strategies_agree_int32 :
    ∃ (start session : Session) (host : TyconRef), start.Created ∧ Run start session ∧
      ImproveRules.HostsDefined session.tycons session.units ∧
      session.tycons.hostPrim? .int32 = some host ∧
      (ImproveRules.build .byName session.tycons session.units).kind?
          (session.units.addUnit .empty .referenced).2 host = some .int32 ∧
        (ImproveRules.build .byStamp session.tycons session.units).kind?
          (session.units.addUnit .empty .referenced).2 host = some .int32 := by
  obtain ⟨start, created, config, _⟩ := exists_bootstrap
  have fresh := created.fresh
  have bootstrap : start.config.compilingStdLib = true := by rw [config]
  obtain ⟨session, quiet, defined⟩ := fresh.exists_hostsDefined bootstrap
  have located := fresh.located_run quiet.run
  have wellFormed := quiet.run.evolves.units.wellFormed fresh.units.wellFormed
  have since : UnitStore.Reaches session.units (session.units.addUnit .empty .referenced).2 :=
    .single (.addUnit .empty .referenced)
  obtain ⟨host, recorded⟩ := located.exists_host (show PrimitiveKind.int32 ≠ .unit from nofun)
  obtain ⟨_, _, finds⟩ := located.exists_hostName recorded
  have held := finds.toLookedUp.held (session.units.addUnit .empty .referenced).2
  have byStamp := ImproveRules.kind?_byStamp_of_hostPrim located fresh.interner wellFormed since
    defined recorded (located.hostPrim_not_corePrim fresh.interner recorded nofun)
  have agree := improve_strategies_agree created quiet.run defined since held
  exact ⟨start, session, host, created, quiet.run, defined, recorded, agree.trans byStamp, byStamp⟩

end Session

end TypeEnv
