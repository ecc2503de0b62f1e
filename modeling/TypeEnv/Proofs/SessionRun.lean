import TypeEnv.Proofs.Requests

namespace TypeEnv

namespace Session

def Step (before next : Session) : Prop :=
  ∃ request : Request, next = before.after request.perform

abbrev Run : Session → Session → Prop := Relation.ReflTransGen Step

def served (session : Session) (requests : List Request) : Session :=
  requests.foldl (fun before request => before.after request.perform) session

/-- What no request changes. -/
structure SameContext (before next : Session) : Prop where
  config : next.config = before.config
  localUnit : next.localUnit = before.localUnit
  tycons : next.tycons = before.tycons
  prims : next.prims = before.prims
  intrinsics : next.intrinsics = before.intrinsics

structure KeepsRules (before next : Session) : Prop extends SameContext before next where
  units : UnitStore.Reaches before.units next.units
  decompileRules : next.decompileRules = before.decompileRules
  improveRules : next.improveRules = before.improveRules

/-- The units stay as they are; rules may be fixed, which changes no answer. -/
structure KeepsUnits (before next : Session) : Prop extends SameContext before next where
  units : next.units = before.units
  decompileRules : next.decompileRulesNow = before.decompileRulesNow
  improveRules : next.improveRulesNow = before.improveRulesNow

variable {before middle next session : Session} {request : Request}

theorem SameContext.refl (session : Session) : SameContext session session :=
  ⟨rfl, rfl, rfl, rfl, rfl⟩

theorem SameContext.trans (first : SameContext before middle) (second : SameContext middle next) :
    SameContext before next :=
  ⟨second.config.trans first.config, second.localUnit.trans first.localUnit,
    second.tycons.trans first.tycons, second.prims.trans first.prims,
    second.intrinsics.trans first.intrinsics⟩

theorem KeepsUnits.refl (session : Session) : KeepsUnits session session :=
  ⟨.refl session, rfl, rfl, rfl⟩

theorem KeepsUnits.trans (first : KeepsUnits before middle) (second : KeepsUnits middle next) :
    KeepsUnits before next :=
  ⟨first.toSameContext.trans second.toSameContext, second.units.trans first.units,
    second.decompileRules.trans first.decompileRules,
    second.improveRules.trans first.improveRules⟩

theorem keepsUnits_answered (session : Session) (query : CanonQuery) :
    KeepsUnits session (session.answered query) := by
  simp only [answered]
  split
  · exact ⟨⟨rfl, rfl, rfl, rfl, rfl⟩, rfl, rfl, rfl⟩
  · split
    · exact ⟨⟨rfl, rfl, rfl, rfl, rfl⟩, rfl, rfl, rfl⟩
    · exact .refl session

theorem decompileRules_answered (session : Session) (query : CanonQuery) :
    (session.answered query).decompileRules =
      if query.usesDecompile then some session.decompileRulesNow else session.decompileRules := by
  simp only [answered]
  split
  · rfl
  · split <;> rfl

theorem improveRules_answered (session : Session) (query : CanonQuery) :
    (session.answered query).improveRules =
      if query.usesImprove then some session.improveRulesNow else session.improveRules := by
  cases query with
  | decompileTycon tycon args nullness => rfl
  | decompileTy ty =>
      simp only [answered, CanonQuery.usesImprove]
      split <;> rfl
  | improveTycon tycon args nullness =>
      simp only [answered, CanonQuery.usesDecompile, Bool.false_eq_true, if_false]
      split <;> rfl
  | improveTy ty =>
      simp only [answered, CanonQuery.usesDecompile, Bool.false_eq_true, if_false]
      split <;> rfl

theorem Alters.keepsRules (alters : Alters before request next) (plain : request.query? = none) :
    KeepsRules before next := by
  cases alters with
  | answered query => cases plain
  | grown | registered | found => exact ⟨⟨rfl, rfl, rfl, rfl, rfl⟩, .refl, rfl, rfl⟩
  | unitAdded name kind =>
      exact ⟨⟨rfl, rfl, rfl, rfl, rfl⟩, .single (.addUnit name kind), rfl, rfl⟩
  | defined unit spec =>
      exact ⟨⟨rfl, rfl, rfl, rfl, rfl⟩, .single (.define unit spec), rfl, rfl⟩
  | embedded interner embedding extended embeds =>
      cases embeds with
      | nothing info => exact ⟨⟨rfl, rfl, rfl, rfl, rfl⟩, .refl, rfl, rfl⟩
      | listed unit key path name =>
          -- an attribute that is embedded is one more definition
          have defined : UnitStore.Reaches before.units
              (before.units.define unit.id (embeddedSpec path name)).2 :=
            .single (.define unit.id (embeddedSpec path name))
          exact ⟨⟨rfl, rfl, rfl, rfl, rfl⟩, defined, rfl, rfl⟩

theorem Alters.extends (alters : Alters before request next) :
    before.interner.Extends next.interner := by
  cases alters with
  | grown interner nextNode plain extended => exact extended
  | answered query =>
      obtain ⟨_, _, _, same⟩ := exists_answered before query
      rw [same]
      exact .refl before.interner
  | unitAdded | defined => exact .refl before.interner
  | registered interner nextNode known extended => exact extended
  | found interner attributes extended => exact extended
  | embedded interner embedding extended => exact extended

theorem Step.keeps (step : Step before next) : KeepsRules before next ∨ KeepsUnits before next := by
  rcases step with ⟨request, rfl⟩
  cases request with
  | canonicalize query =>
      rw [after_canonicalize]
      exact Or.inr (keepsUnits_answered before query)
  | _ => exact Or.inl ((alters_after _ before).keepsRules rfl)

structure Evolves (before after : Session) : Prop extends SameContext before after where
  units : UnitStore.Reaches before.units after.units

theorem Evolves.refl (session : Session) : Evolves session session :=
  ⟨.refl session, .refl⟩

theorem Evolves.trans (first : Evolves before middle) (second : Evolves middle next) :
    Evolves before next :=
  ⟨first.toSameContext.trans second.toSameContext, first.units.trans second.units⟩

theorem Step.evolves (step : Step before next) : Evolves before next := by
  rcases step.keeps with rules | units
  · exact ⟨rules.toSameContext, rules.units⟩
  · refine ⟨units.toSameContext, ?_⟩
    rw [units.units]

/-- What every step keeps is kept along a run. -/
theorem Run.keeps (relation : Session → Session → Prop) (run : Run before next)
    (refl : ∀ session, relation session session)
    (trans : ∀ {first second third}, relation first second → relation second third →
      relation first third)
    (step : ∀ {first second}, Step first second → relation first second) :
    relation before next := by
  induction run with
  | refl => exact refl before
  | tail _ last ih => exact trans ih (step last)

theorem Run.evolves (run : Run before next) : Evolves before next :=
  run.keeps Evolves .refl .trans Step.evolves

theorem Run.extends (run : Run before next) : before.interner.Extends next.interner := by
  let grown (before next : Session) : Prop := before.interner.Extends next.interner
  refine run.keeps grown (fun session => .refl session.interner) Interner.Extends.trans ?_
  rintro first second ⟨request, rfl⟩
  exact (alters_after request first).extends

theorem run_served (requests : List Request) (session : Session) :
    Run session (session.served requests) := by
  induction requests generalizing session with
  | nil => exact .refl
  | cons request rest ih => exact .head ⟨request, rfl⟩ (ih _)

theorem Fresh.intrinsic_made (fresh : start.Fresh) (run : Run start session) (id : IntrinsicId) :
    (session.intrinsic id).MadeFrom id.spec session.tycons session.prims session.interner := by
  rw [intrinsic, run.evolves.intrinsics, run.evolves.tycons, run.evolves.prims]
  exact (Table.get_of_entries fresh.intrinsics id).mono run.extends

end Session

end TypeEnv
