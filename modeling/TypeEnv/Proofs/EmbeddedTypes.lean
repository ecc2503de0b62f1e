import TypeEnv.Proofs.FirstUse

namespace TypeEnv

structure TypeDef.Synthesized (definition : TypeDef) : Prop where
  kind : definition.kind = .attribute
  arity : definition.arity = 0
  access : definition.access = .internal
  isSealed : definition.flags.isSealed = true
  isEmbedded : definition.flags.isEmbedded = true

namespace UnitStore

variable {store : UnitStore} {unit : UnitId} {path : NamespacePath} {name : Name}

theorem define_synthesized (free : store.lookup unit path name = none) :
    (store.define unit (embeddedSpec path name)).1.Synthesized := by
  constructor <;> simp only [define, embeddedSpec, free]

theorem define_origin (store : UnitStore) (unit : UnitId) (path : NamespacePath) (name : Name) :
    store.lookup unit path name = some (store.define unit (embeddedSpec path name)).1 ∨
      store.lookup unit path name = none ∧
        (store.define unit (embeddedSpec path name)).1.Synthesized := by
  cases had : store.lookup unit path name with
  | some earlier =>
      have there : store.lookup unit (embeddedSpec path name).path (embeddedSpec path name).name =
          some earlier := had
      rw [define_of_lookup there]
      exact Or.inl rfl
  | none => exact Or.inr ⟨rfl, define_synthesized had⟩

end UnitStore

namespace Session

variable {start before session next : Session} {full : String} {definition : TypeDef}
  {entry : Name × AttributeInfo}

/-- A request for the attribute, which leads from one session to the next, lists the definition:
the unit under compilation had it under the attribute's name, or got it then. -/
structure Lists (full : String) (before next : Session) (definition : TypeDef) : Prop where
  embeddable : full ∈ embeddableAttributes
  spelled : next.interner.Spells full definition.path definition.name
  own : definition.unit = before.localUnit.id
  origin :
    before.units.lookup definition.unit definition.path definition.name = some definition ∨
      before.units.lookup definition.unit definition.path definition.name = none ∧
        definition.Synthesized

theorem mem_embedded_after (request : Request) (wellFormed : session.units.WellFormed)
    (member : entry ∈ (session.after request.perform).attributes.embedded) :
    entry ∈ session.attributes.embedded ∨
      ∃ full definition, request = .findOrEmbedAttribute full ∧
        entry.2.tycon = .direct definition ∧
        Lists full session (session.after request.perform) definition := by
  have alters := alters_after request session
  generalize session.after request.perform = next at alters member ⊢
  cases alters with
  | grown | unitAdded | defined | registered => exact Or.inl member
  | answered query =>
      obtain ⟨_, _, _, same⟩ := exists_answered session query
      rw [same] at member
      exact Or.inl member
  | found interner attributes extended kept => exact Or.inl (kept ▸ member)
  | @embedded full interner embedding extended embeds =>
      cases embeds with
      | nothing info => exact Or.inl member
      | listed unit key path name allowed embeddable spelled =>
          rcases List.mem_append.mp member with earlier | last
          · exact Or.inl earlier
          · rw [List.mem_singleton.mp last]
            have place := UnitStore.define_place wellFormed unit.id (embeddedSpec path name)
            simp only [TypeDef.place, Prod.mk.injEq] at place
            rcases place with ⟨inUnit, atPath, atName⟩
            refine Or.inr ⟨full, _, rfl, rfl, ?_⟩
            constructor
            case embeddable => exact embeddable
            case spelled =>
              rw [atPath, atName]
              exact spelled
            case own =>
              rw [inUnit]
              split at allowed
              · rw [← Option.some.inj allowed]
              · cases allowed
            case origin =>
              rw [inUnit, atPath, atName]
              exact session.units.define_origin unit.id path name

def ListedBy (start session : Session) (definition : TypeDef) : Prop :=
  ∃ full before, Run start before ∧
    Run (before.after (Request.findOrEmbedAttribute full).perform) session ∧
      Lists full before (before.after (Request.findOrEmbedAttribute full).perform) definition

theorem listedBy_of_mem (wellFormed : start.units.WellFormed)
    (nothing : start.attributes.embedded = []) (run : Run start session)
    (member : entry ∈ session.attributes.embedded) :
    ∃ definition, entry.2.tycon = .direct definition ∧ ListedBy start session definition := by
  induction run with
  | refl =>
      rw [nothing] at member
      cases member
  | tail run step ih =>
      rcases step with ⟨request, rfl⟩
      have reached := (Run.evolves run).units.wellFormed wellFormed
      rcases mem_embedded_after request reached member with
        earlier | ⟨full, definition, rfl, direct, lists⟩
      · rcases ih earlier with ⟨definition, direct, full, before, earlierRun, since, lists⟩
        exact ⟨definition, direct, full, before, earlierRun, since.tail ⟨request, rfl⟩, lists⟩
      · exact ⟨definition, direct, full, _, run, .refl, lists⟩

theorem mem_embeddedTypes :
    definition ∈ session.embeddedTypes ↔
      ∃ entry ∈ session.attributes.embedded,
        entry.2.tycon.definition? session.units = some definition := by
  rw [embeddedTypes, AttributeCatalogue.embeddedTypes, List.mem_mergeSort, List.mem_filterMap]

section Requests

variable (nothing : session.attributes.embedded = []) (alone : session.resolver = .table [])
  (supported : session.config.supports .embeddedAttributes = true)
  (room : session.interner.Room spareRoom) (embeddable : full ∈ embeddableAttributes)

include nothing alone supported room embeddable

theorem exists_embedded :
    ∃ path name, ∀ units,
      (units.define session.localUnit.id (embeddedSpec path name)).1 ∈
        ({ session with units }.after
          (Request.findOrEmbedAttribute full).perform).embeddedTypes := by
  rcases session.attributes.exists_listing session.interner session.localUnit embeddable nothing
    (room.weaken (by decide)) with ⟨key, path, name, after, served⟩
  refine ⟨path, name, ?_⟩
  intro units
  have answered : { session with units }.embedding full session.interner =
      .ok (.ok (session.attributes.listing units session.localUnit key path name)) after := by
    rw [embedding, alone, if_pos supported, served]
  rw [Request.perform, after_discard, mem_embeddedTypes, after_findOrEmbedAttribute, answered]
  exact ⟨_, List.mem_append_right _ List.mem_cons_self, rfl⟩

end Requests

theorem exists_embedding_session (embeddable : full ∈ embeddableAttributes) :
    ∃ start : Session, start.Created ∧ start.units.definitions = [] ∧ ∃ path name, ∀ units,
      (units.define start.localUnit.id (embeddedSpec path name)).1 ∈
        ({ start with units }.after
          (Request.findOrEmbedAttribute full).perform).embeddedTypes := by
  obtain ⟨start, created, config, undefined, alone, room⟩ :=
    exists_roomy (show Config.validate {} = .ok () by decide)
  have supported : start.config.supports .embeddedAttributes = true := by
    rw [config]
    decide
  exact ⟨start, created, undefined,
    exists_embedded created.fresh.embedded alone supported room embeddable⟩

/-- Whatever is defined and asked in between, every definition listed as embedded is one of the unit
under compilation, and a request for a marker attribute listed it under the name of that attribute:
the compiler made it then, unless the unit already had a type of that name, which is what is listed
instead. -/
theorem embeddedTypes_origin (created : start.Created) (run : Run start session)
    (listed : definition ∈ session.embeddedTypes) :
    definition.unit = session.localUnit.id ∧ ListedBy start session definition := by
  rcases mem_embeddedTypes.mp listed with ⟨entry, member, leads⟩
  rcases listedBy_of_mem created.fresh.units.wellFormed created.fresh.embedded run member with
    ⟨made, direct, listedBy⟩
  rw [direct] at leads
  cases leads
  refine ⟨?_, listedBy⟩
  rcases listedBy with ⟨full, before, earlier, _, lists⟩
  rw [run.evolves.localUnit, ← earlier.evolves.localUnit]
  exact lists.own

theorem embeddedTypes_origin_made :
    ∃ (start session : Session) (definition : TypeDef), start.Created ∧ Run start session ∧
      definition ∈ session.embeddedTypes ∧ definition.unit = session.localUnit.id ∧
      ListedBy start session definition := by
  have embeddable : "System.Runtime.CompilerServices.IsReadOnlyAttribute" ∈ embeddableAttributes :=
    List.mem_cons_self
  obtain ⟨start, created, _, path, name, listed⟩ := exists_embedding_session embeddable
  have run : Run start (start.after (Request.findOrEmbedAttribute
      "System.Runtime.CompilerServices.IsReadOnlyAttribute").perform) :=
    .single ⟨_, rfl⟩
  exact ⟨start, _, _, created, run, listed start.units,
    embeddedTypes_origin created run (listed start.units)⟩

/-- A public class that the unit under compilation defines under the name of a marker attribute is
listed as embedded once the attribute is asked for. -/
theorem embeddedTypes_lists_class :
    ∃ (start session : Session) (spec : TypeSpec) (definition : TypeDef), start.Created ∧
      Run (start.after (Request.define start.localUnit.id spec).perform) session ∧
      definition ∈ (start.after (Request.define start.localUnit.id spec).perform).units.definitions ∧
      definition ∈ session.embeddedTypes ∧ definition.kind = .classType ∧
      definition.access = .exported ∧ ¬ definition.Synthesized := by
  have embeddable : "System.Runtime.CompilerServices.IsReadOnlyAttribute" ∈ embeddableAttributes :=
    List.mem_cons_self
  obtain ⟨start, created, undefined, path, name, listed⟩ := exists_embedding_session embeddable
  let spec : TypeSpec := { path, name, kind := .classType }
  let defined := start.units.define start.localUnit.id spec
  have wellFormed := created.fresh.units.wellFormed
  have free : start.units.lookup start.localUnit.id spec.path spec.name = none :=
    UnitStore.lookup_of_undefined undefined ..
  have kind : defined.1.kind = .classType := by
    simp only [defined, UnitStore.define, free, spec]
  have access : defined.1.access = .exported := by
    simp only [defined, UnitStore.define, free, spec]
  have again : (defined.2.define start.localUnit.id (embeddedSpec path name)).1 = defined.1 :=
    wellFormed.define_again start.localUnit.id spec rfl rfl
  have lists := listed defined.2
  rw [again] at lists
  refine ⟨start, _, spec, defined.1, created, .single ⟨_, rfl⟩, ?_, lists, kind, access, ?_⟩
  · exact UnitStore.define_mem start.units start.localUnit.id spec
  · intro synthesized
    rw [synthesized.kind] at kind
    cases kind

end Session

end TypeEnv
