import TypeEnv.Proofs.AttributeNames
import TypeEnv.Proofs.SessionRun

/-!
Requests for attributes, by the names that an attribute has. Every entry of the catalogue stands
under the names of an attribute that was asked for, so a request can be read as if the names were
interned first and the catalogue and the resolver were asked afterwards.
-/

namespace TypeEnv

namespace AttributeCatalogue

variable {catalogue : AttributeCatalogue} {entries : List (Name × AttributeInfo)}
  {before : Interner} {full other : String} {names : AttributeNames} {key : Name}
  {info : AttributeInfo}

/-- Every entry stands under the key of an attribute that has names. -/
def Keyed (interner : Interner) (entries : List (Name × AttributeInfo)) : Prop :=
  ∀ ⦃key info⦄, (key, info) ∈ entries → ∃ full names, interner.Names full names ∧ key = names.key

theorem mem_of_lookup (held : entries.lookup key = some info) : (key, info) ∈ entries := by
  rw [List.lookup_eq_some_iff] at held
  rcases held with ⟨earlier, later, rfl, _⟩
  exact List.mem_append_right _ List.mem_cons_self

theorem lookup_append_of_some (held : entries.lookup key = some info)
    (entry : Name × AttributeInfo) : (entries ++ [entry]).lookup key = some info := by
  rw [List.lookup_append, held, Option.some_or]

theorem lookup_append_of_none (new : entries.lookup key = none) (info : AttributeInfo) :
    (entries ++ [(key, info)]).lookup key = some info := by
  rw [List.lookup_append, new, Option.none_or, List.lookup_cons, beq_self_eq_true]

theorem Keyed.names_of_intern {after : Interner} (keyed : Keyed before entries)
    (wellFormed : before.WellFormed) (interned : Interner.intern full before = .ok key after)
    (held : entries.lookup key = some info) :
    ∃ names, before.Names full names ∧ key = names.key := by
  rcases keyed (mem_of_lookup held) with ⟨other, names, named, rfl⟩
  have spelled := Interner.ensures_intern before full names.key after interned
  have known := (named.mono spelled.1).key
  have same : other = full := (spelled.1.wellFormed wellFormed).get?_injective known spelled.2
  exact ⟨names, same ▸ named, rfl⟩

theorem find_eq (wellFormed : before.WellFormed) (keyed : Keyed before catalogue.found)
    (resolver : Resolver) (store : UnitStore) (full : String) :
    catalogue.find resolver store full before =
      match Interner.internAttribute full before with
      | .ok names after =>
        match catalogue.found.lookup names.key with
        | some info => .ok (info, catalogue) after
        | none =>
          let unit := resolver.resolveOrDefer store after names.path names.name true
          let info := AttributeInfo.inUnit unit names.path names.name
          .ok (info, { catalogue with found := catalogue.found ++ [(names.key, info)] }) after
      | .error shard after => .error shard after := by
  cases interned : Interner.intern full before with
  | error shard after =>
      simp only [find, Interner.internAttribute, bind, EStateM.bind, interned]
  | ok key withKey =>
      cases held : catalogue.found.lookup key with
      | some info =>
          rcases keyed.names_of_intern wellFormed interned held with ⟨names, named, rfl⟩
          have known := Interner.intern_of_get? named.key
          simp only [find, named.internAttribute_eq, bind, EStateM.bind, known, held, pure,
            EStateM.pure]
      | none =>
          have read (state : Interner) : (get : Interning Interner) state = .ok state state := rfl
          simp only [find, Interner.internAttribute, bind, EStateM.bind, interned, held]
          cases Interner.internTypeName full withKey with
          | error shard after => rfl
          | ok place after => simp only [read, pure, EStateM.pure, held]

theorem findOrEmbed_eq (wellFormed : before.WellFormed) (keyed : Keyed before catalogue.embedded)
    (resolver : Resolver) (store : UnitStore) (host : Option CompilationUnit) (full : String) :
    catalogue.findOrEmbed resolver store host full before =
      match Interner.internAttribute full before with
      | .ok names after =>
        match catalogue.embedded.lookup names.key with
        | some info => .ok (.ok ⟨info, catalogue, store⟩) after
        | none =>
          match resolver.resolve store names.path names.name true, host with
          | some unit, _ =>
            .ok (.ok ⟨.inUnit (.found unit) names.path names.name, catalogue, store⟩) after
          | none, none => .ok (.error (.notEmbeddable full)) after
          | none, some unit =>
            if full ∈ embeddableAttributes then
              .ok (.ok (catalogue.listing store unit names.key names.path names.name)) after
            else .ok (.error (.notEmbeddable full)) after
      | .error shard after => .error shard after := by
  cases interned : Interner.intern full before with
  | error shard after =>
      simp only [findOrEmbed, Interner.internAttribute, bind, EStateM.bind, interned]
  | ok key withKey =>
      cases held : catalogue.embedded.lookup key with
      | some info =>
          rcases keyed.names_of_intern wellFormed interned held with ⟨names, named, rfl⟩
          have known := Interner.intern_of_get? named.key
          simp only [findOrEmbed, named.internAttribute_eq, bind, EStateM.bind, known, held, pure,
            EStateM.pure]
      | none =>
          simp only [findOrEmbed, find?, Interner.internAttribute, bind, EStateM.bind, interned,
            held]
          cases placed : Interner.internTypeName full withKey with
          | error shard after => rfl
          | ok place after =>
              -- the parts are known when they are asked for again
              have spelled := Interner.ensures_internTypeName withKey full place after placed
              have again := spelled.2.internTypeName_eq
              simp only [pure, EStateM.pure, held]
              cases resolver.resolve store place.1 place.2 true with
              | some unit => rfl
              | none =>
                  cases host with
                  | none => rfl
                  | some unit =>
                      by_cases listed : full ∈ embeddableAttributes
                      · simp only [Option.map_none, if_pos listed, EStateM.bind, again, listing,
                          EStateM.pure]
                      · simp only [Option.map_none, if_neg listed, EStateM.pure]

end AttributeCatalogue

namespace Session

variable {α β : Type} {session before middle next : Session} {requests more : List Request}
  {full other : String} {names : AttributeNames} {interner : Interner} {shard : ShardFull}
  {key : Name} {info : AttributeInfo}

def outcome (session : Session) (action : SessionM α) : Except Failure α :=
  match action session with
  | .ok value _ => .ok value
  | .error failure _ => .error failure

def OutOfRoom (session : Session) (action : SessionM α) : Prop :=
  ∃ shard, session.outcome action = .error (fullShard shard) ∧
    (session.after action).interner.Exhausted shard

def provider? (session : Session) (names : AttributeNames) : Option CompilationUnit :=
  session.resolver.resolve session.units names.path names.name true

def describe (session : Session) (names : AttributeNames) : AttributeInfo :=
  .inUnit (session.resolveOrDefer names.path names.name true) names.path names.name

def Embeddable (session : Session) (full : String) : Prop :=
  full ∈ embeddableAttributes ∧ session.config.supports .embeddedAttributes = true

instance (session : Session) (full : String) : Decidable (session.Embeddable full) :=
  inferInstanceAs (Decidable (_ ∧ _))

/-- The definition that the unit under compilation has or gets for the attribute. -/
def embeddedType (session : Session) (names : AttributeNames) : TypeDef × UnitStore :=
  session.units.define session.localUnit.id (embeddedSpec names.path names.name)

def withFound (session : Session) (interner : Interner) (names : AttributeNames) : Session :=
  let entry := (names.key, { session with interner }.describe names)
  let found := session.attributes.found ++ [entry]
  { session with interner, attributes := { session.attributes with found } }

def withEmbedded (session : Session) (interner : Interner) (names : AttributeNames) : Session :=
  let info := AttributeInfo.embedded (session.embeddedType names).1 names.path names.name
  let embedded := session.attributes.embedded ++ [(names.key, info)]
  { session with
    interner, units := (session.embeddedType names).2
    attributes := { session.attributes with embedded } }

structure Found (requests : List Request) (session : Session) (key : Name) (info : AttributeInfo)
    (full : String) (names : AttributeNames) : Prop where
  named : session.interner.Names full names
  key : key = names.key
  described : ∃ unit, info = .inUnit unit names.path names.name
  asked : (∃ attr : RequiredAttribute, full = attr.fullName) ∨ .findAttribute full ∈ requests

structure Made (requests : List Request) (session : Session) (key : Name) (info : AttributeInfo)
    (full : String) (names : AttributeNames) (definition : TypeDef) : Prop where
  named : session.interner.Names full names
  key : key = names.key
  described : info = .embedded definition names.path names.name
  defined : session.units.lookup session.localUnit.id names.path names.name = some definition
  embeddable : session.Embeddable full
  asked : .findOrEmbedAttribute full ∈ requests

/-- Every entry of the catalogue is that of an attribute that was asked for, besides those asked for
while the session was built. -/
structure Catalogued (requests : List Request) (session : Session) : Prop where
  interner : session.interner.WellFormed
  units : session.units.WellFormed
  found : ∀ {key info}, (key, info) ∈ session.attributes.found →
    ∃ full names, Found requests session key info full names
  embedded : ∀ {key info}, (key, info) ∈ session.attributes.embedded →
    ∃ full names definition, Made requests session key info full names definition
  distinct : (session.attributes.embedded.map Prod.fst).Nodup

theorem Catalogued.keyed_found (catalogued : session.Catalogued requests) :
    AttributeCatalogue.Keyed session.interner session.attributes.found := by
  intro key info member
  rcases catalogued.found member with ⟨full, names, found⟩
  exact ⟨full, names, found.named, found.key⟩

theorem Catalogued.keyed_embedded (catalogued : session.Catalogued requests) :
    AttributeCatalogue.Keyed session.interner session.attributes.embedded := by
  intro key info member
  rcases catalogued.embedded member with ⟨full, names, definition, made⟩
  exact ⟨full, names, made.named, made.key⟩

section Held

variable (catalogued : session.Catalogued requests) (grown : session.interner.Extends interner)
  (named : interner.Names full names)

include catalogued grown named

theorem Catalogued.found_of_lookup
    (held : session.attributes.found.lookup names.key = some info) :
    Found requests session names.key info full names := by
  rcases catalogued.found (AttributeCatalogue.mem_of_lookup held) with ⟨other, again, found⟩
  have later := found.named.mono grown
  have same := named.full_eq (grown.wellFormed catalogued.interner) later found.key
  subst same
  rwa [← named.unique later] at found

theorem Catalogued.made_of_lookup
    (held : session.attributes.embedded.lookup names.key = some info) :
    ∃ definition, Made requests session names.key info full names definition := by
  rcases catalogued.embedded (AttributeCatalogue.mem_of_lookup held) with
    ⟨other, again, definition, made⟩
  have later := made.named.mono grown
  have same := named.full_eq (grown.wellFormed catalogued.interner) later made.key
  subst same
  rw [← named.unique later] at made
  exact ⟨definition, made⟩

end Held

section Answers

theorem findAttribute_run (full : String) (session : Session) :
    findAttribute full session =
      match session.attributes.find session.resolver session.units full session.interner with
      | .ok found interner => .ok found.1 { session with interner, attributes := found.2 }
      | .error shard interner => .error (fullShard shard) { session with interner } := by
  have read : (get : SessionM Session) session = .ok session session := rfl
  simp only [findAttribute, bind, EStateM.bind, read, interns, reportFull, EStateM.adaptExcept]
  cases session.attributes.find session.resolver session.units full session.interner <;> rfl

theorem findOrEmbedAttribute_run (full : String) (session : Session) :
    findOrEmbedAttribute full session =
      match session.embedding full session.interner with
      | .ok (.ok embedding) interner =>
        .ok embedding.info
          { session with interner, attributes := embedding.catalogue, units := embedding.units }
      | .ok (.error error) interner => .error (.error error) { session with interner }
      | .error shard interner => .error (fullShard shard) { session with interner } := by
  have read : (get : SessionM Session) session = .ok session session := rfl
  simp only [findOrEmbedAttribute, bind, EStateM.bind, read, interns, reportFull,
    EStateM.adaptExcept]
  rw [← embedding]
  cases session.embedding full session.interner with
  | error shard interner => rfl
  | ok outcome interner => cases outcome <;> rfl

/-- Trying to find an attribute asks the resolver, not the catalogue. -/
theorem findAttribute?_eq (full : String) (session : Session) :
    findAttribute? full session =
      match Interner.internTypeName full session.interner with
      | .ok place interner =>
        .ok ((session.resolver.resolve session.units place.1 place.2 true).map fun unit =>
          .inUnit (.found unit) place.1 place.2) { session with interner }
      | .error shard interner => .error (fullShard shard) { session with interner } := by
  have read : (get : SessionM Session) session = .ok session session := rfl
  simp only [findAttribute?, bind, EStateM.bind, read, interns, reportFull, EStateM.adaptExcept,
    AttributeCatalogue.find?]
  cases Interner.internTypeName full session.interner <;> rfl

theorem outcome_of_spells {path : NamespacePath} {name : Name}
    (spelled : session.interner.Spells full path name) :
    session.outcome (findAttribute? full) =
      .ok ((session.resolver.resolve session.units path name true).map fun unit =>
        .inUnit (.found unit) path name) := by
  rw [outcome, findAttribute?_eq, spelled.internTypeName_eq]

theorem findAttribute_eq (catalogued : session.Catalogued requests) (full : String) :
    findAttribute full session =
      match Interner.internAttribute full session.interner with
      | .ok names interner =>
        match session.attributes.found.lookup names.key with
        | some info => .ok info { session with interner }
        | none => .ok ({ session with interner }.describe names) (session.withFound interner names)
      | .error shard interner => .error (fullShard shard) { session with interner } := by
  rw [findAttribute_run, AttributeCatalogue.find_eq catalogued.interner catalogued.keyed_found]
  cases Interner.internAttribute full session.interner with
  | error shard interner => rfl
  | ok names interner =>
      cases held : session.attributes.found.lookup names.key with
      | some info => simp only [held]
      | none =>
          simp only [held]
          rfl

/-- An attribute that was embedded before keeps its description. Any other is taken from the unit
that provides it, and else embedded if that may be done. -/
theorem findOrEmbedAttribute_eq (catalogued : session.Catalogued requests) (full : String) :
    findOrEmbedAttribute full session =
      match Interner.internAttribute full session.interner with
      | .ok names interner =>
        match session.attributes.embedded.lookup names.key with
        | some info => .ok info { session with interner }
        | none =>
          match session.provider? names with
          | some unit =>
            .ok (.inUnit (.found unit) names.path names.name) { session with interner }
          | none =>
            if session.Embeddable full then
              .ok (.embedded (session.embeddedType names).1 names.path names.name)
                (session.withEmbedded interner names)
            else .error (.error (.notEmbeddable full)) { session with interner }
      | .error shard interner => .error (fullShard shard) { session with interner } := by
  rw [findOrEmbedAttribute_run, embedding,
    AttributeCatalogue.findOrEmbed_eq catalogued.interner catalogued.keyed_embedded]
  cases Interner.internAttribute full session.interner with
  | error shard interner => rfl
  | ok names interner =>
      cases held : session.attributes.embedded.lookup names.key with
      | some info => simp only [held]
      | none =>
          simp only [held, provider?]
          cases session.resolver.resolve session.units names.path names.name true with
          | some unit => rfl
          | none =>
              by_cases supported : session.config.supports .embeddedAttributes = true
              · by_cases listed : full ∈ embeddableAttributes
                · have embeddable : session.Embeddable full := ⟨listed, supported⟩
                  simp only [if_pos supported, if_pos listed, if_pos embeddable]
                  rfl
                · have refused : ¬ session.Embeddable full := fun both => listed both.1
                  simp only [if_pos supported, if_neg listed, if_neg refused]
              · have refused : ¬ session.Embeddable full := fun both => supported both.2
                simp only [if_neg supported, if_neg refused]

inductive Finds (session : Session) (full : String) :
    EStateM.Result Failure Session AttributeInfo → Prop where
  | refused {shard : ShardFull} {interner : Interner}
    (refused : Interner.internAttribute full session.interner = .error shard interner) :
    Finds session full (.error (fullShard shard) { session with interner })
  | known {names : AttributeNames} {interner : Interner} {info : AttributeInfo}
    (interned : Interner.internAttribute full session.interner = .ok names interner)
    (held : session.attributes.found.lookup names.key = some info) :
    Finds session full (.ok info { session with interner })
  | described {names : AttributeNames} {interner : Interner}
    (interned : Interner.internAttribute full session.interner = .ok names interner)
    (new : session.attributes.found.lookup names.key = none) :
    Finds session full
      (.ok ({ session with interner }.describe names) (session.withFound interner names))

theorem finds (catalogued : session.Catalogued requests) (full : String) :
    Finds session full (findAttribute full session) := by
  rw [findAttribute_eq catalogued]
  cases interned : Interner.internAttribute full session.interner with
  | error shard interner => exact .refused interned
  | ok names interner =>
      cases held : session.attributes.found.lookup names.key with
      | some info =>
          simp only [held]
          exact .known interned held
      | none =>
          simp only [held]
          exact .described interned held

inductive FindsOrEmbeds (session : Session) (full : String) :
    EStateM.Result Failure Session AttributeInfo → Prop where
  | refused {shard : ShardFull} {interner : Interner}
    (refused : Interner.internAttribute full session.interner = .error shard interner) :
    FindsOrEmbeds session full (.error (fullShard shard) { session with interner })
  | known {names : AttributeNames} {interner : Interner} {info : AttributeInfo}
    (interned : Interner.internAttribute full session.interner = .ok names interner)
    (held : session.attributes.embedded.lookup names.key = some info) :
    FindsOrEmbeds session full (.ok info { session with interner })
  | provided {names : AttributeNames} {interner : Interner} {unit : CompilationUnit}
    (interned : Interner.internAttribute full session.interner = .ok names interner)
    (new : session.attributes.embedded.lookup names.key = none)
    (provides : session.provider? names = some unit) :
    FindsOrEmbeds session full
      (.ok (.inUnit (.found unit) names.path names.name) { session with interner })
  | embedded {names : AttributeNames} {interner : Interner}
    (interned : Interner.internAttribute full session.interner = .ok names interner)
    (new : session.attributes.embedded.lookup names.key = none)
    (unprovided : session.provider? names = none) (embeddable : session.Embeddable full) :
    FindsOrEmbeds session full
      (.ok (.embedded (session.embeddedType names).1 names.path names.name)
        (session.withEmbedded interner names))
  | unembeddable {names : AttributeNames} {interner : Interner}
    (interned : Interner.internAttribute full session.interner = .ok names interner)
    (new : session.attributes.embedded.lookup names.key = none)
    (unprovided : session.provider? names = none) (unembeddable : ¬ session.Embeddable full) :
    FindsOrEmbeds session full (.error (.error (.notEmbeddable full)) { session with interner })

theorem findsOrEmbeds (catalogued : session.Catalogued requests) (full : String) :
    FindsOrEmbeds session full (findOrEmbedAttribute full session) := by
  rw [findOrEmbedAttribute_eq catalogued]
  cases interned : Interner.internAttribute full session.interner with
  | error shard interner => exact .refused interned
  | ok names interner =>
      cases held : session.attributes.embedded.lookup names.key with
      | some info =>
          simp only [held]
          exact .known interned held
      | none =>
          cases provides : session.provider? names with
          | some unit =>
              simp only [held, provides]
              exact .provided interned held provides
          | none =>
              by_cases embeddable : session.Embeddable full
              · simp only [held, provides, if_pos embeddable]
                exact .embedded interned held provides embeddable
              · simp only [held, provides, if_neg embeddable]
                exact .unembeddable interned held provides embeddable

end Answers

section Room

variable {naming : Interning β} {action : SessionM α} {count : Nat}

theorem outOfRoom_of_refused (stops : StopsWhenFull id session.interner count naming)
    (wellFormed : session.interner.WellFormed)
    (refused : naming session.interner = .error shard interner)
    (run : action session = .error (fullShard shard) { session with interner }) :
    session.OutOfRoom action := by
  rcases (stops.of_error refused).2 wellFormed with ⟨shard, rfl, exhausted⟩
  refine ⟨shard, ?_, ?_⟩
  · rw [outcome, run]
  · rw [after, run]
    exact exhausted

theorem outOfRoom_or_named (catalogued : session.Catalogued requests) (full : String) :
    session.OutOfRoom (findAttribute full) ∨
      ∃ names interner, Interner.internAttribute full session.interner = .ok names interner := by
  cases interned : Interner.internAttribute full session.interner with
  | ok names interner => exact Or.inr ⟨names, interner, rfl⟩
  | error shard interner =>
      have run := findAttribute_eq catalogued full
      simp only [interned] at run
      exact Or.inl (outOfRoom_of_refused (Interner.stops_internAttribute session.interner full)
        catalogued.interner interned run)

theorem outOfRoom_or_placed (wellFormed : session.interner.WellFormed) (full : String) :
    session.OutOfRoom (findAttribute? full) ∨
      ∃ place interner, Interner.internTypeName full session.interner = .ok place interner := by
  cases placed : Interner.internTypeName full session.interner with
  | ok place interner => exact Or.inr ⟨place, interner, rfl⟩
  | error shard interner =>
      have run := findAttribute?_eq full session
      simp only [placed] at run
      exact Or.inl (outOfRoom_of_refused (Interner.stops_internTypeName session.interner full)
        wellFormed placed run)

end Room

end Session

end TypeEnv
