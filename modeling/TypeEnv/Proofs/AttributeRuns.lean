import TypeEnv.Proofs.AttributeRequests

namespace TypeEnv

namespace Session

variable {session before middle next start : Session} {request : Request}
  {requests more : List Request} {full : String} {names : AttributeNames} {interner : Interner}
  {key : Name} {info : AttributeInfo} {definition : TypeDef}

/-- The units and the attributes stay as they are; strings may be interned. -/
structure Aside (before next : Session) : Prop where
  config : next.config = before.config
  localUnit : next.localUnit = before.localUnit
  resolver : next.resolver = before.resolver
  wellKnownAttributes : next.wellKnownAttributes = before.wellKnownAttributes
  attributes : next.attributes = before.attributes
  units : next.units = before.units
  interner : before.interner.Extends next.interner

theorem Aside.trans (first : Aside before middle) (second : Aside middle next) :
    Aside before next where
  config := second.config.trans first.config
  localUnit := second.localUnit.trans first.localUnit
  resolver := second.resolver.trans first.resolver
  wellKnownAttributes := second.wellKnownAttributes.trans first.wellKnownAttributes
  attributes := second.attributes.trans first.attributes
  units := second.units.trans first.units
  interner := first.interner.trans second.interner

theorem aside_interner (grown : session.interner.Extends interner) :
    Aside session { session with interner } :=
  ⟨rfl, rfl, rfl, rfl, rfl, rfl, grown⟩

/-- What a request does to the units and to the attributes: nothing, but for a new unit, a
definition, an attribute described for the first time and an attribute that is embedded. -/
inductive Serves (session : Session) : Request → Session → Prop where
  | aside {request : Request} {next : Session} (kept : Aside session next) :
    Serves session request next
  | unitAdded (name : Name) (kind : UnitKind) :
    Serves session (.addUnit name kind)
      { session with units := (session.units.addUnit name kind).2 }
  | defined (unit : UnitId) (spec : TypeSpec) :
    Serves session (.define unit spec)
      { session with units := (session.units.define unit spec).2 }
  | found {full : String} {names : AttributeNames} {interner : Interner}
    (interned : Interner.internAttribute full session.interner = .ok names interner)
    (new : session.attributes.found.lookup names.key = none) :
    Serves session (.findAttribute full) (session.withFound interner names)
  | embedded {full : String} {names : AttributeNames} {interner : Interner}
    (interned : Interner.internAttribute full session.interner = .ok names interner)
    (new : session.attributes.embedded.lookup names.key = none)
    (unprovided : session.provider? names = none) (embeddable : session.Embeddable full) :
    Serves session (.findOrEmbedAttribute full) (session.withEmbedded interner names)

theorem aside_refused {shard : ShardFull}
    (refused : Interner.internAttribute full session.interner = .error shard interner) :
    Aside session { session with interner } :=
  aside_interner ((Interner.stops_internAttribute session.interner full).of_error refused).1

theorem aside_interned
    (interned : Interner.internAttribute full session.interner = .ok names interner) :
    Aside session { session with interner } :=
  aside_interner (Interner.named_of_internAttribute interned).1

theorem serves_findAttribute (catalogued : session.Catalogued requests) (full : String) :
    Serves session (.findAttribute full) (session.after (findAttribute full)) := by
  have finds := session.finds catalogued full
  rw [after]
  generalize findAttribute full session = result at finds ⊢
  cases finds with
  | refused refused => exact .aside (aside_refused refused)
  | known interned held => exact .aside (aside_interned interned)
  | described interned new => exact .found interned new

theorem serves_findOrEmbedAttribute (catalogued : session.Catalogued requests) (full : String) :
    Serves session (.findOrEmbedAttribute full) (session.after (findOrEmbedAttribute full)) := by
  have finds := session.findsOrEmbeds catalogued full
  rw [after]
  generalize findOrEmbedAttribute full session = result at finds ⊢
  cases finds with
  | refused refused => exact .aside (aside_refused refused)
  | known interned _ | provided interned _ _ | unembeddable interned _ _ _ =>
      exact .aside (aside_interned interned)
  | embedded interned new unprovided embeddable =>
      exact .embedded interned new unprovided embeddable

theorem serves (catalogued : session.Catalogued requests) (request : Request) :
    Serves session request (session.after request.perform) := by
  by_cases asks : ∃ full, request = .findAttribute full ∨ request = .findOrEmbedAttribute full
  · obtain ⟨full, rfl | rfl⟩ := asks
    · rw [Request.perform, after_discard]
      exact serves_findAttribute catalogued full
    · rw [Request.perform, after_discard]
      exact serves_findOrEmbedAttribute catalogued full
  · have alters := alters_after request session
    generalize session.after request.perform = next at alters ⊢
    cases alters with
    | grown interner nextNode plain extended =>
        exact .aside ⟨rfl, rfl, rfl, rfl, rfl, rfl, extended⟩
    | answered query =>
        obtain ⟨_, _, _, same⟩ := exists_answered session query
        rw [same]
        exact .aside ⟨rfl, rfl, rfl, rfl, rfl, rfl, .refl session.interner⟩
    | unitAdded name kind => exact .unitAdded name kind
    | defined unit spec => exact .defined unit spec
    | registered interner nextNode known extended =>
        exact .aside ⟨rfl, rfl, rfl, rfl, rfl, rfl, extended⟩
    | @found full => exact absurd ⟨full, Or.inl rfl⟩ asks
    | @embedded full => exact absurd ⟨full, Or.inr rfl⟩ asks

/-- What is never taken back. -/
structure Retains (before next : Session) : Prop where
  config : next.config = before.config
  localUnit : next.localUnit = before.localUnit
  resolver : next.resolver = before.resolver
  wellKnownAttributes : next.wellKnownAttributes = before.wellKnownAttributes
  interner : before.interner.Extends next.interner
  units : UnitStore.Reaches before.units next.units
  found : ∀ {key info}, before.attributes.found.lookup key = some info →
    next.attributes.found.lookup key = some info
  embedded : ∀ {key info}, before.attributes.embedded.lookup key = some info →
    next.attributes.embedded.lookup key = some info

theorem Aside.retains (kept : Aside before next) : Retains before next where
  config := kept.config
  localUnit := kept.localUnit
  resolver := kept.resolver
  wellKnownAttributes := kept.wellKnownAttributes
  interner := kept.interner
  units := by rw [kept.units]
  found := by
    rw [kept.attributes]
    exact id
  embedded := by
    rw [kept.attributes]
    exact id

theorem Retains.trans (first : Retains before middle) (second : Retains middle next) :
    Retains before next where
  config := second.config.trans first.config
  localUnit := second.localUnit.trans first.localUnit
  resolver := second.resolver.trans first.resolver
  wellKnownAttributes := second.wellKnownAttributes.trans first.wellKnownAttributes
  interner := first.interner.trans second.interner
  units := first.units.trans second.units
  found held := second.found (first.found held)
  embedded held := second.embedded (first.embedded held)

theorem Serves.retains (serves : Serves before request next) : Retains before next := by
  cases serves with
  | aside kept => exact kept.retains
  | unitAdded name kind =>
      exact ⟨rfl, rfl, rfl, rfl, .refl _, .single (.addUnit name kind), id, id⟩
  | defined unit spec =>
      exact ⟨rfl, rfl, rfl, rfl, .refl _, .single (.define unit spec), id, id⟩
  | found interned new =>
      have grown := (Interner.named_of_internAttribute interned).1
      refine ⟨rfl, rfl, rfl, rfl, grown, .refl, fun held => ?_, id⟩
      exact AttributeCatalogue.lookup_append_of_some held _
  | @embedded full names interner interned new unprovided embeddable =>
      have grown := (Interner.named_of_internAttribute interned).1
      have defined : UnitStore.Reaches before.units (before.embeddedType names).2 :=
        .single (.define before.localUnit.id (embeddedSpec names.path names.name))
      refine ⟨rfl, rfl, rfl, rfl, grown, defined, id, fun held => ?_⟩
      exact AttributeCatalogue.lookup_append_of_some held _

theorem Retains.embeddable_iff (retains : Retains before next) (full : String) :
    next.Embeddable full ↔ before.Embeddable full := by
  rw [Embeddable, Embeddable, retains.config]

theorem Found.retained (found : Found requests before key info full names)
    (retains : Retains before next) (request : Request) :
    Found (requests ++ [request]) next key info full names where
  named := found.named.mono retains.interner
  key := found.key
  described := found.described
  asked := found.asked.imp_right (List.mem_append_left [request])

theorem Made.retained (made : Made requests before key info full names definition)
    (wellFormed : before.units.WellFormed) (retains : Retains before next) (request : Request) :
    Made (requests ++ [request]) next key info full names definition where
  named := made.named.mono retains.interner
  key := made.key
  described := made.described
  defined := by
    rw [retains.localUnit]
    exact retains.units.lookup wellFormed made.defined
  embeddable := (retains.embeddable_iff full).mpr made.embeddable
  asked := List.mem_append_left [request] made.asked

theorem nodup_append_of_none {entries : List (Name × AttributeInfo)}
    (distinct : (entries.map Prod.fst).Nodup) (new : entries.lookup key = none) :
    ((entries ++ [(key, info)]).map Prod.fst).Nodup := by
  rw [List.map_append, List.map_singleton, ← List.concat_eq_append]
  apply distinct.concat
  intro member
  rcases List.mem_map.mp member with ⟨entry, held, same⟩
  have apart := List.lookup_eq_none_iff.mp new entry held
  rw [same, bne_self_eq_false] at apart
  cases apart

theorem Serves.catalogued (serves : Serves before request next)
    (catalogued : before.Catalogued requests) : next.Catalogued (requests ++ [request]) := by
  have retains := serves.retains
  have foundBefore {key info} (member : (key, info) ∈ before.attributes.found) :
      ∃ full names, Found (requests ++ [request]) next key info full names := by
    rcases catalogued.found member with ⟨full, names, found⟩
    exact ⟨full, names, found.retained retains request⟩
  have madeBefore {key info} (member : (key, info) ∈ before.attributes.embedded) :
      ∃ full names definition,
        Made (requests ++ [request]) next key info full names definition := by
    rcases catalogued.embedded member with ⟨full, names, definition, made⟩
    exact ⟨full, names, definition, made.retained catalogued.units retains request⟩
  have interner := retains.interner.wellFormed catalogued.interner
  have units := retains.units.wellFormed catalogued.units
  cases serves with
  | aside kept =>
      refine ⟨interner, units, ?_, ?_, ?_⟩
      · rw [kept.attributes]
        exact foundBefore
      · rw [kept.attributes]
        exact madeBefore
      · rw [kept.attributes]
        exact catalogued.distinct
  | unitAdded name kind => exact ⟨interner, units, foundBefore, madeBefore, catalogued.distinct⟩
  | defined unit spec => exact ⟨interner, units, foundBefore, madeBefore, catalogued.distinct⟩
  | @found full names after interned new =>
      refine ⟨interner, units, ?_, madeBefore, catalogued.distinct⟩
      intro key info member
      rcases List.mem_append.mp member with earlier | last
      · exact foundBefore earlier
      · cases List.mem_singleton.mp last
        have named := (Interner.named_of_internAttribute interned).2
        exact ⟨full, names, named, rfl, ⟨_, rfl⟩,
          Or.inr (List.mem_append_right _ List.mem_cons_self)⟩
  | @embedded full names after interned new unprovided embeddable =>
      refine ⟨interner, units, foundBefore, ?_, nodup_append_of_none catalogued.distinct new⟩
      intro key info member
      rcases List.mem_append.mp member with earlier | last
      · exact madeBefore earlier
      · cases List.mem_singleton.mp last
        have named := (Interner.named_of_internAttribute interned).2
        have defined := before.units.lookup_define_self before.localUnit.id
          (embeddedSpec names.path names.name)
        exact ⟨full, names, _, named, rfl, rfl, defined, embeddable,
          List.mem_append_right _ List.mem_cons_self⟩

theorem served_append (session : Session) (earlier : List Request) (request : Request)
    (later : List Request) :
    session.served (earlier ++ request :: later) =
      ((session.served earlier).after request.perform).served later :=
  List.foldl_append

theorem Catalogued.served (catalogued : session.Catalogued requests) (more : List Request) :
    (session.served more).Catalogued (requests ++ more) := by
  induction more generalizing session requests with
  | nil =>
      rw [List.append_nil]
      exact catalogued
  | cons request rest ih =>
      have next := (Session.serves catalogued request).catalogued catalogued
      have whole := ih next
      rwa [List.append_assoc] at whole

theorem Catalogued.retains (catalogued : session.Catalogued requests) (more : List Request) :
    Retains session (session.served more) := by
  induction more generalizing session requests with
  | nil => exact (aside_interner (.refl session.interner)).retains
  | cons request rest ih =>
      have step := Session.serves catalogued request
      exact step.retains.trans (ih (step.catalogued catalogued))

end Session

end TypeEnv
