import TypeEnv.Proofs.AttributeRequests

namespace TypeEnv

structure AttributeInfo.Resolved (info : AttributeInfo) (resolver : Resolver) (store : UnitStore)
    (interner : Interner) (full : String) (names : AttributeNames) : Prop where
  named : interner.Names full names
  described : info = .inUnit (resolver.resolveOrDefer store interner names.path names.name true)
    names.path names.name

theorem AttributeInfo.Resolved.mono {info : AttributeInfo} {resolver : Resolver} {store : UnitStore}
    {before after : Interner} {full : String} {names : AttributeNames}
    (resolved : info.Resolved resolver store before full names) (wellFormed : before.WellFormed)
    (grown : before.Extends after) : info.Resolved resolver store after full names where
  named := resolved.named.mono grown
  described := by
    rw [resolver.resolveOrDefer_mono store (resolved.named.knows wellFormed) grown.toGrows]
    exact resolved.described

namespace WellKnownAttributes

variable {resolver : Resolver} {store : UnitStore} {catalogue larger : AttributeCatalogue}
  {before after : Interner} {attributes : List RequiredAttribute}

/-- The catalogue holds the required attributes that were looked up, and no others. -/
def Holds (resolver : Resolver) (store : UnitStore) (catalogue : AttributeCatalogue)
    (interner : Interner) : Prop :=
  ∀ ⦃key info⦄, (key, info) ∈ catalogue.found → ∃ (attr : RequiredAttribute) (names : _),
    info.Resolved resolver store interner attr.fullName names ∧ key = names.key

def Kept (resolver : Resolver) (store : UnitStore) (catalogue : AttributeCatalogue)
    (interner : Interner) (attr : RequiredAttribute) (info : AttributeInfo) : Prop :=
  ∃ names, info.Resolved resolver store interner attr.fullName names ∧
    catalogue.found.lookup names.key = some info

def Extended (catalogue larger : AttributeCatalogue) : Prop :=
  ∀ ⦃key info⦄, catalogue.found.lookup key = some info → larger.found.lookup key = some info

theorem Kept.mono {attr : RequiredAttribute} {info : AttributeInfo}
    (kept : Kept resolver store catalogue before attr info) (wellFormed : before.WellFormed)
    (extended : Extended catalogue larger) (grown : before.Extends after) :
    Kept resolver store larger after attr info := by
  rcases kept with ⟨names, resolved, held⟩
  exact ⟨names, resolved.mono wellFormed grown, extended held⟩

theorem Holds.mono (holds : Holds resolver store catalogue before) (wellFormed : before.WellFormed)
    (grown : before.Extends after) : Holds resolver store catalogue after := by
  intro key info member
  rcases holds member with ⟨attr, names, resolved, same⟩
  exact ⟨attr, names, resolved.mono wellFormed grown, same⟩

theorem Holds.append {attr : RequiredAttribute} {info : AttributeInfo} {names : AttributeNames}
    (holds : Holds resolver store catalogue before)
    (resolved : info.Resolved resolver store before attr.fullName names) :
    Holds resolver store { catalogue with found := catalogue.found ++ [(names.key, info)] }
      before := by
  intro key entry member
  rcases List.mem_append.mp member with earlier | last
  · exact holds earlier
  · cases List.mem_singleton.mp last
    exact ⟨attr, names, resolved, rfl⟩

theorem Holds.kept {attr : RequiredAttribute} {info : AttributeInfo} {names : AttributeNames}
    (holds : Holds resolver store catalogue before) (wellFormed : before.WellFormed)
    (named : before.Names attr.fullName names)
    (held : catalogue.found.lookup names.key = some info) :
    Kept resolver store catalogue before attr info := by
  rcases holds (AttributeCatalogue.mem_of_lookup held) with ⟨other, again, resolved, same⟩
  have one := named.full_eq wellFormed resolved.named same
  rw [← one] at resolved
  rw [resolved.named.unique named] at resolved
  exact ⟨names, resolved, held⟩

theorem ensures_find_kept (holds : Holds resolver store catalogue before)
    (wellFormed : before.WellFormed) (attr : RequiredAttribute) :
    Ensures before (catalogue.find resolver store attr.fullName) fun found after =>
      before.Extends after ∧ Holds resolver store found.2 after ∧ Extended catalogue found.2 ∧
        Kept resolver store found.2 after attr found.1 := by
  have keyed : AttributeCatalogue.Keyed before catalogue.found := by
    intro key info member
    rcases holds member with ⟨attr, names, resolved, same⟩
    exact ⟨attr.fullName, names, resolved.named, same⟩
  intro found after outcome
  rw [AttributeCatalogue.find_eq wellFormed keyed] at outcome
  cases interned : Interner.internAttribute attr.fullName before with
  | error shard state =>
      rw [interned] at outcome
      cases outcome
  | ok names state =>
      have named := Interner.named_of_internAttribute interned
      have grown := holds.mono wellFormed named.1
      simp only [interned] at outcome
      cases held : catalogue.found.lookup names.key with
      | some info =>
          simp only [held] at outcome
          cases outcome
          have kept := grown.kept (named.1.wellFormed wellFormed) named.2 held
          exact ⟨named.1, grown, fun _ _ => id, kept⟩
      | none =>
          simp only [held] at outcome
          cases outcome
          let unit := resolver.resolveOrDefer store after names.path names.name true
          have resolved : (AttributeInfo.inUnit unit names.path names.name).Resolved resolver store
              after attr.fullName names := ⟨named.2, rfl⟩
          refine ⟨named.1, grown.append resolved, fun key info found => ?_, names, resolved, ?_⟩
          · exact AttributeCatalogue.lookup_append_of_some found _
          · exact AttributeCatalogue.lookup_append_of_none held _

theorem ensures_findAll_kept (holds : Holds resolver store catalogue before)
    (wellFormed : before.WellFormed) (attributes : List RequiredAttribute) :
    Ensures before (findAll resolver store catalogue attributes) fun found after =>
      before.Extends after ∧ Holds resolver store found.2 after ∧ Extended catalogue found.2 ∧
        List.Forall₂ (Kept resolver store found.2 after) attributes found.1.val := by
  induction attributes generalizing catalogue before with
  | nil => exact ensures_pure ⟨.refl before, holds, fun _ _ => id, .nil⟩
  | cons attr rest ih =>
      refine ensures_bind (ensures_find_kept holds wellFormed attr) fun first middle now => ?_
      rcases now with ⟨grown, held, extended, kept⟩
      have formed := grown.wellFormed wellFormed
      refine ensures_bind (ih held formed) fun others after later => ?_
      rcases later with ⟨since, all, further, keptAll⟩
      apply ensures_pure
      refine ⟨grown.trans since, all, fun _ _ found => further (extended found), ?_⟩
      exact .cons (kept.mono formed further since) keptAll

def Tried (resolver : Resolver) (store : UnitStore) (attr : OptionalAttribute)
    (entry : Option AttributeInfo) (interner : Interner) : Prop :=
  ∃ path name, interner.Spells attr.fullName path name ∧
    entry = (resolver.resolve store path name true).map fun unit => .inUnit (.found unit) path name

theorem ensures_tried (resolver : Resolver) (store : UnitStore) (attr : OptionalAttribute)
    (before : Interner) :
    Ensures before (AttributeCatalogue.find? resolver store attr.fullName) fun entry after =>
      before.Extends after ∧ Tried resolver store attr entry after := by
  refine ensures_bind (Interner.ensures_internTypeName before attr.fullName) ?_
  intro place after spelled
  exact ensures_pure ⟨spelled.1, place.1, place.2, spelled.2, rfl⟩

structure Located (attributes : WellKnownAttributes) (resolver : Resolver) (store : UnitStore)
    (catalogue : AttributeCatalogue) (interner : Interner) : Prop where
  required : ∀ attr, Kept resolver store catalogue interner attr (attributes.required.get attr)
  optional : ∀ attr, Tried resolver store attr (attributes.optional.get attr) interner
  holds : Holds resolver store catalogue interner

theorem ensures_located (resolver : Resolver) (store : UnitStore) (wellFormed : before.WellFormed) :
    Ensures before (locate resolver store) fun found after =>
      found.1.Located resolver store found.2 after := by
  have empty : Holds resolver store {} before := by
    intro key info member
    cases member
  refine ensures_bind (ensures_findAll_kept empty wellFormed RequiredAttribute.all) ?_
  intro required middle found
  rcases found with ⟨grown, held, _, kept⟩
  have formed := grown.wellFormed wellFormed
  have optional : Ensures middle (Table.ofFnM fun attr : OptionalAttribute =>
      AttributeCatalogue.find? resolver store attr.fullName) fun table after =>
      middle.Extends after ∧ ∀ attr, Tried resolver store attr (table.get attr) after := by
    apply ensures_ofFnM
    case lasting =>
      rintro attr entry before after extended ⟨path, name, spelled, same⟩
      exact ⟨path, name, spelled.mono extended.toGrows, same⟩
    case each => exact ensures_tried resolver store
  refine ensures_bind optional fun table after tried => ?_
  apply ensures_pure
  constructor
  case required =>
    intro attr
    let table : Table RequiredAttribute AttributeInfo := ⟨required.1.val, required.1.property⟩
    have entries : List.Forall₂ (Kept resolver store required.2 middle) Enumerated.all
        table.entries := kept
    exact (Table.get_of_entries entries attr).mono formed (fun _ _ => id) tried.1
  case optional => exact tried.2
  case holds => exact held.mono formed tried.1

end WellKnownAttributes

namespace Session

variable {setup : SessionSetup} {session : Session} {before : Interner}

/-- The well-known attributes of the session are those that its resolver finds in its units. -/
def Equipped (session : Session) : Prop :=
  session.wellKnownAttributes.Located session.resolver session.units session.attributes
    session.interner

theorem ensures_equipped (wellFormed : before.WellFormed) :
    Ensures before (build setup) fun session _ => session.Equipped := by
  refine (ensures_builds setup before).weaken fun session after builds => ?_
  cases builds with
  | @steps _ tycons _ _ _ _ withCore withTycons withIntrinsics _ core located made _ found =>
      have cores := (stops_coreUnitOf setup before).extends_of_ok core
      have tyconsFound := (WellKnownTycons.stops_locate _ withCore).extends_of_ok located
      have intrinsicsMade := ensures_intrinsics tycons _ withTycons _ _ made
      have formed := (cores.trans (tyconsFound.trans intrinsicsMade.1)).wellFormed wellFormed
      exact WellKnownAttributes.ensures_located setup.resolver setup.units formed _ _ found

theorem Created.equipped (created : session.Created) : session.Equipped := by
  rcases created with ⟨setup, interner, after, _, reached, outcome⟩
  exact ensures_equipped reached.wellFormed session after (build_of_create outcome)

theorem Created.catalogued (created : session.Created) : session.Catalogued [] where
  interner := created.fresh.interner
  units := created.fresh.units.wellFormed
  found := by
    intro key info member
    rcases created.equipped.holds member with ⟨attr, names, resolved, same⟩
    exact ⟨attr.fullName, names, resolved.named, same, ⟨_, resolved.described⟩, Or.inl ⟨attr, rfl⟩⟩
  embedded := by
    intro key info member
    rw [created.fresh.embedded] at member
    cases member
  distinct := by
    rw [created.fresh.embedded]
    exact List.nodup_nil

theorem exists_own_table :
    ∃ start : Session, start.Created ∧ start.config = {} ∧ start.localUnit.kind = .compiled ∧
      start.resolver = .table [start.localUnit] ∧ start.units.definitions = [] ∧
      start.interner.Room spareRoom := by
  let added := ({} : UnitStore).addUnit Name.empty .compiled
  let setup : SessionSetup :=
    { units := added.2, localUnit := added.1, resolver := .table [added.1] }
  have reached : setup.units.Reachable := .single (.addUnit Name.empty .compiled)
  have accepted : setup.config.validate = .ok () := rfl
  rcases exists_spacious accepted reached with
    ⟨start, created, config, units, resolver, follows, room⟩
  have table : start.resolver = .table [start.localUnit] := by
    rw [resolver, follows.localUnit]
  have kind : start.localUnit.kind = .compiled := by
    rw [follows.localUnit]
    rfl
  exact ⟨start, created, config, kind, table, congrArg UnitStore.definitions units, room⟩

/-- With room to spare, a first request for a marker attribute that no unit provides embeds it. -/
theorem Created.embeds {full : String} (created : session.Created)
    (room : session.interner.Room spareRoom) (embeddable : session.Embeddable full)
    (unprovided : ∀ names, session.provider? names = none) :
    ∃ names interner, Interner.internAttribute full session.interner = .ok names interner ∧
      findOrEmbedAttribute full session =
        .ok (.embedded (session.embeddedType names).1 names.path names.name)
          (session.withEmbedded interner names) := by
  have short := AttributeCatalogue.length_segments_le embeddable.1
  have fits : (Dotted.segments (Dotted.splitLast full).1).length + 2 ≤ spareRoom := by
    rw [spareRoom]
    omega
  rcases Interner.exists_internAttribute room fits with ⟨names, interner, interned⟩
  refine ⟨names, interner, interned, ?_⟩
  rw [findOrEmbedAttribute_eq created.catalogued, interned]
  simp only [created.fresh.embedded, List.lookup_nil, unprovided, if_pos embeddable]

end Session

end TypeEnv
