import TypeEnv.Proofs.AttributeRuns
import TypeEnv.Proofs.EmbeddedTypes
import TypeEnv.Proofs.LocatedAttributes

/-!
Requests for attributes that may be embedded, where the resolver is a table of other units in which
nothing more is defined. What such a request comes to depends on the attribute alone: the first
listed unit that defines it publicly, else a definition of the unit under compilation, else a
refusal. So it comes to the same whenever it is made, and only the first one changes anything.
-/

namespace TypeEnv

def Request.Spares (listed : List CompilationUnit) : Request → Prop
  | .define unit _ => ∀ other ∈ listed, other.id ≠ unit
  | _ => True

namespace Session

variable {session before middle next start : Session} {request : Request}
  {requests more : List Request} {listed : List CompilationUnit} {full : String}
  {names : AttributeNames} {interner : Interner} {info : AttributeInfo}

def SameUnits (listed : List CompilationUnit) (before next : Session) : Prop :=
  ∀ unit ∈ listed, next.units.contentsOf unit.id = before.units.contentsOf unit.id

theorem SameUnits.trans (first : SameUnits listed before middle)
    (second : SameUnits listed middle next) : SameUnits listed before next :=
  fun unit member => (second unit member).trans (first unit member)

/-- The units are looked up in a table of other units, and no attribute that one of them provides is
embedded. -/
structure Steady (listed : List CompilationUnit) (requests : List Request) (session : Session) :
    Prop extends session.Catalogued requests where
  table : session.resolver = .table listed
  apart : ∀ unit ∈ listed, unit.id ≠ session.localUnit.id
  unprovided : ∀ {full names info}, session.interner.Names full names →
    session.attributes.embedded.lookup names.key = some info → session.provider? names = none

theorem provider?_table (table : session.resolver = .table listed) (names : AttributeNames) :
    session.provider? names =
      listed.find? fun unit => session.units.defines unit.id names.path names.name true := by
  rw [provider?, table]
  rfl

theorem SameUnits.provider?_eq (same : SameUnits listed before next)
    (table : before.resolver = .table listed) (kept : next.resolver = before.resolver)
    (names : AttributeNames) : next.provider? names = before.provider? names := by
  rw [provider?, provider?, kept, table]
  apply Resolver.table_congr
  intro unit member
  simp only [UnitStore.defines, UnitStore.lookup, same unit member]

theorem Serves.sameUnits (serves : Serves before request next) (spares : request.Spares listed)
    (apart : ∀ unit ∈ listed, unit.id ≠ before.localUnit.id) : SameUnits listed before next := by
  intro unit member
  cases serves with
  | aside kept => rw [kept.units]
  | unitAdded name kind => rfl
  | defined other spec => exact UnitStore.contentsOf_define_of_ne spec (spares unit member)
  | found interned new => rfl
  | embedded interned new unprovided embeddable =>
      exact UnitStore.contentsOf_define_of_ne _ (apart unit member)

theorem Serves.steady (serves : Serves before request next) (spares : request.Spares listed)
    (steady : before.Steady listed requests) : next.Steady listed (requests ++ [request]) where
  toCatalogued := serves.catalogued steady.toCatalogued
  table := serves.retains.resolver.trans steady.table
  apart := by
    rw [serves.retains.localUnit]
    exact steady.apart
  unprovided := by
    intro full names info named held
    have retains := serves.retains
    rw [(serves.sameUnits spares steady.apart).provider?_eq steady.table retains.resolver]
    -- what was embedded before was unprovided before
    have earlier (held : before.attributes.embedded.lookup names.key = some info) :
        before.provider? names = none := by
      rcases steady.made_of_lookup retains.interner named held with ⟨_, made⟩
      exact steady.unprovided made.named held
    cases serves with
    | aside kept =>
        rw [kept.attributes] at held
        exact earlier held
    | unitAdded name kind => exact earlier held
    | defined other spec => exact earlier held
    | found interned new => exact earlier held
    | @embedded other again after interned new unprovided embeddable =>
        cases had : before.attributes.embedded.lookup names.key with
        | some entry =>
            rcases steady.made_of_lookup retains.interner named had with ⟨_, made⟩
            exact steady.unprovided made.named had
        | none =>
            rw [withEmbedded, List.lookup_append, had, Option.none_or] at held
            have last := List.mem_singleton.mp (AttributeCatalogue.mem_of_lookup held)
            have added := (Interner.named_of_internAttribute interned).2
            have formed := retains.interner.wellFormed steady.interner
            have same := named.full_eq formed added (congrArg Prod.fst last)
            subst same
            rwa [named.unique added]

theorem Steady.served (steady : session.Steady listed requests) (more : List Request)
    (spares : ∀ request ∈ more, request.Spares listed) :
    (session.served more).Steady listed (requests ++ more) ∧
      SameUnits listed session (session.served more) := by
  induction more generalizing session requests with
  | nil =>
      rw [List.append_nil]
      exact ⟨steady, fun _ _ => rfl⟩
  | cons request rest ih =>
      have step := Session.serves steady.toCatalogued request
      have first := spares request List.mem_cons_self
      have next := step.steady first steady
      rcases ih next fun other member => spares other (List.mem_cons_of_mem request member) with
        ⟨last, same⟩
      rw [List.append_assoc] at last
      exact ⟨last, (step.sameUnits first steady.apart).trans same⟩

theorem Created.steady (created : start.Created) (table : start.resolver = .table listed)
    (apart : ∀ unit ∈ listed, unit.id ≠ start.localUnit.id) : start.Steady listed [] where
  toCatalogued := created.catalogued
  table := table
  apart := apart
  unprovided := by
    intro full names info _ held
    rw [created.fresh.embedded] at held
    cases held

inductive Obtains (full : String) (names : AttributeNames) (session : Session) :
    Except Failure AttributeInfo → UnitStore → AttributeCatalogue → Prop where
  | listed {info : AttributeInfo} (held : session.attributes.embedded.lookup names.key = some info)
    (unprovided : session.provider? names = none) (embeddable : session.Embeddable full)
    (described : info = .embedded (session.embeddedType names).1 names.path names.name)
    (kept : (session.embeddedType names).2 = session.units) :
    Obtains full names session (.ok info) session.units session.attributes
  | provided {unit : CompilationUnit} (provides : session.provider? names = some unit) :
    Obtains full names session (.ok (.inUnit (.found unit) names.path names.name)) session.units
      session.attributes
  | made {interner : Interner} (new : session.attributes.embedded.lookup names.key = none)
    (unprovided : session.provider? names = none) (embeddable : session.Embeddable full) :
    Obtains full names session
      (.ok (.embedded (session.embeddedType names).1 names.path names.name))
      (session.withEmbedded interner names).units (session.withEmbedded interner names).attributes
  | refused (unprovided : session.provider? names = none)
    (unembeddable : ¬ session.Embeddable full) :
    Obtains full names session (.error (.error (.notEmbeddable full))) session.units
      session.attributes

theorem obtains (steady : session.Steady listed requests)
    (interned : Interner.internAttribute full session.interner = .ok names interner) :
    let next := session.after (findOrEmbedAttribute full)
    next.interner = interner ∧
      Obtains full names session (session.outcome (findOrEmbedAttribute full)) next.units
        next.attributes := by
  have finds := session.findsOrEmbeds steady.toCatalogued full
  simp only [outcome, after]
  generalize findOrEmbedAttribute full session = result at finds ⊢
  cases finds with
  | refused refused =>
      rw [interned] at refused
      cases refused
  | known again held =>
      cases interned.symm.trans again
      have named := Interner.named_of_internAttribute interned
      rcases steady.made_of_lookup named.1 named.2 held with ⟨definition, made⟩
      have defined : session.embeddedType names = (definition, session.units) :=
        UnitStore.define_of_lookup made.defined
      refine ⟨rfl, .listed held (steady.unprovided made.named held) made.embeddable ?_ ?_⟩
      · rw [defined, made.described]
      · rw [defined]
  | provided again _ provides =>
      cases interned.symm.trans again
      exact ⟨rfl, .provided provides⟩
  | embedded again new unprovided embeddable =>
      cases interned.symm.trans again
      exact ⟨rfl, .made new unprovided embeddable⟩
  | unembeddable again _ unprovided unembeddable =>
      cases interned.symm.trans again
      exact ⟨rfl, .refused unprovided unembeddable⟩

section Obtains

variable {result : Except Failure AttributeInfo} {units : UnitStore}
  {attributes : AttributeCatalogue}

/-- What a request for an attribute with these names comes to, whatever is embedded already. -/
def supply (session : Session) (full : String) (names : AttributeNames) :
    Except Failure AttributeInfo :=
  match session.provider? names with
  | some unit => .ok (.inUnit (.found unit) names.path names.name)
  | none =>
    if session.Embeddable full then
      .ok (.embedded (session.embeddedType names).1 names.path names.name)
    else .error (.error (.notEmbeddable full))

theorem Obtains.eq_supply (obtains : Obtains full names session result units attributes) :
    result = session.supply full names := by
  cases obtains with
  | listed held unprovided embeddable described kept =>
      rw [supply, unprovided, described]
      simp only [if_pos embeddable]
  | provided provides => rw [supply, provides]
  | made new unprovided embeddable =>
      rw [supply, unprovided]
      simp only [if_pos embeddable]
  | refused unprovided unembeddable =>
      rw [supply, unprovided]
      simp only [if_neg unembeddable]

theorem Obtains.embedded (obtains : Obtains full names session result units attributes)
    (unprovided : session.provider? names = none) (embeddable : session.Embeddable full) :
    units.lookup session.localUnit.id names.path names.name = some (session.embeddedType names).1 ∧
      ∃ info, attributes.embedded.lookup names.key = some info := by
  have defined := session.units.lookup_define_self session.localUnit.id
    (embeddedSpec names.path names.name)
  cases obtains with
  | listed held _ _ _ kept => exact ⟨kept ▸ defined, _, held⟩
  | provided provides =>
      rw [unprovided] at provides
      cases provides
  | made new _ _ => exact ⟨defined, _, AttributeCatalogue.lookup_append_of_none new _⟩
  | refused _ unembeddable => exact absurd embeddable unembeddable

theorem Obtains.keeps (obtains : Obtains full names session result units attributes)
    (settled : (∃ failure, result = .error failure) ∨
      (∃ unit, session.provider? names = some unit) ∨
      ∃ info, session.attributes.embedded.lookup names.key = some info) :
    units = session.units ∧ attributes = session.attributes := by
  cases obtains with
  | listed | provided | refused => exact ⟨rfl, rfl⟩
  | made new unprovided _ =>
      rw [new, unprovided] at settled
      rcases settled with ⟨_, failed⟩ | ⟨_, provides⟩ | ⟨_, held⟩
      · cases failed
      · cases provides
      · cases held

theorem Obtains.adds (obtains : Obtains full names session result units attributes)
    (new : session.attributes.embedded.lookup names.key = none)
    (unprovided : session.provider? names = none) (embeddable : session.Embeddable full) :
    ∃ interner, units = (session.withEmbedded interner names).units ∧
      attributes = (session.withEmbedded interner names).attributes := by
  cases obtains with
  | listed held _ _ _ _ =>
      rw [new] at held
      cases held
  | provided provides =>
      rw [unprovided] at provides
      cases provides
  | @made interner _ _ _ => exact ⟨interner, rfl, rfl⟩
  | refused _ unembeddable => exact absurd embeddable unembeddable

end Obtains

theorem supply_eq_found_iff {unit : CompilationUnit} :
    session.supply full names = .ok (.inUnit (.found unit) names.path names.name) ↔
      session.provider? names = some unit := by
  rw [supply]
  split
  case h_1 other provides =>
    constructor
    · intro same
      have tycon := congrArg AttributeInfo.tycon (Except.ok.inj same)
      cases tycon
      exact provides
    · intro same
      rw [Option.some.inj (provides.symm.trans same)]
  case h_2 unprovided =>
    split <;> simp [unprovided, AttributeInfo.embedded, AttributeInfo.inUnit]

theorem supply_eq_embedded_iff {definition : TypeDef} :
    session.supply full names = .ok (.embedded definition names.path names.name) ↔
      session.provider? names = none ∧ session.Embeddable full ∧
        definition = (session.embeddedType names).1 := by
  rw [supply]
  split
  case h_1 other provides => simp [provides, AttributeInfo.embedded, AttributeInfo.inUnit]
  case h_2 unprovided =>
    split
    case isTrue embeddable =>
      simp [unprovided, embeddable, AttributeInfo.embedded, eq_comm]
    case isFalse unembeddable => simp [unembeddable]

theorem supply_eq_refused_iff :
    session.supply full names = .error (.error (.notEmbeddable full)) ↔
      session.provider? names = none ∧ ¬ session.Embeddable full := by
  rw [supply]
  split
  case h_1 other provides => simp [provides]
  case h_2 unprovided => split <;> simp [*]

section Again

variable (steady : session.Steady listed requests)

include steady

theorem Steady.resumed (full : String) (more : List Request)
    (spares : ∀ request ∈ more, request.Spares listed) :
    let next := session.after (findOrEmbedAttribute full)
    let last := next.served more
    next.Steady listed (requests ++ [.findOrEmbedAttribute full]) ∧
      last.Steady listed (requests ++ [.findOrEmbedAttribute full] ++ more) ∧
      Retains next last ∧ Retains session last ∧ SameUnits listed session last := by
  have step := serves_findOrEmbedAttribute steady.toCatalogued full
  have next := step.steady trivial steady
  have since := next.retains more
  rcases next.served more spares with ⟨last, same⟩
  have units := (step.sameUnits trivial steady.apart).trans same
  exact ⟨next, last, since, step.retains.trans since, units⟩

/-- Once the request is made, the attribute has its names for good, or never gets any. -/
theorem Steady.named_or_refused (full : String) :
    let next := session.after (findOrEmbedAttribute full)
    (∃ names interner, Interner.internAttribute full session.interner = .ok names interner ∧
      next.interner.Names full names) ∨
    ∃ shard, session.outcome (findOrEmbedAttribute full) = .error (fullShard shard) ∧
      ∀ later, next.interner.Extends later →
        Interner.internAttribute full later = .error shard later := by
  cases interned : Interner.internAttribute full session.interner with
  | ok names interner =>
      refine Or.inl ⟨names, interner, rfl, ?_⟩
      rw [(obtains steady interned).1]
      exact (Interner.named_of_internAttribute interned).2
  | error shard interner =>
      have run := findOrEmbedAttribute_eq steady.toCatalogued full
      simp only [interned] at run
      refine Or.inr ⟨shard, by rw [outcome, run], ?_⟩
      rw [after, run]
      exact fun later => steady.interner.internAttribute_again interned

theorem outcome_findOrEmbedAttribute_again (full : String) (more : List Request)
    (spares : ∀ request ∈ more, request.Spares listed) :
    ((session.after (findOrEmbedAttribute full)).served more).outcome (findOrEmbedAttribute full) =
      session.outcome (findOrEmbedAttribute full) := by
  rcases steady.resumed full more spares with ⟨next, last, since, whole, units⟩
  rcases steady.named_or_refused full with
    ⟨names, interner, interned, named⟩ | ⟨shard, refused, again⟩
  · have first := (obtains steady interned).2
    have second := (obtains last (named.mono since.interner).internAttribute_eq).2
    have provider := units.provider?_eq steady.table whole.resolver names
    rw [second.eq_supply, first.eq_supply, supply, supply, provider]
    cases unprovided : session.provider? names with
    | some unit => rfl
    | none =>
        by_cases embeddable : session.Embeddable full
        · have defined := (first.embedded unprovided embeddable).1
          have later := since.units.lookup next.units defined
          rw [← whole.localUnit] at later
          have one : ((session.after (findOrEmbedAttribute full)).served more).embeddedType names =
              ((session.embeddedType names).1, _) := UnitStore.define_of_lookup later
          simp only [if_pos ((whole.embeddable_iff full).mpr embeddable), if_pos embeddable, one]
        · simp only [if_neg (embeddable ∘ (whole.embeddable_iff full).mp), if_neg embeddable]
  · rw [refused]
    simp only [outcome, findOrEmbedAttribute_eq last.toCatalogued, again _ since.interner]

theorem lookup_embedded_of_unasked (grown : session.interner.Extends interner)
    (named : interner.Names full names) (unasked : .findOrEmbedAttribute full ∉ requests) :
    session.attributes.embedded.lookup names.key = none := by
  rw [Option.eq_none_iff_forall_ne_some]
  intro info held
  rcases steady.made_of_lookup grown named held with ⟨_, made⟩
  exact unasked made.asked

theorem lookup_embedded_again {more : List Request}
    (spares : ∀ request ∈ more, request.Spares listed)
    (grown : ((session.after (findOrEmbedAttribute full)).served more).interner.Extends interner)
    (named : interner.Names full names)
    (unprovided :
      ((session.after (findOrEmbedAttribute full)).served more).provider? names = none)
    (embeddable : ((session.after (findOrEmbedAttribute full)).served more).Embeddable full) :
    ∃ info, ((session.after (findOrEmbedAttribute full)).served more).attributes.embedded.lookup
      names.key = some info := by
  rcases steady.resumed full more spares with ⟨_, _, since, whole, units⟩
  have extended := since.interner.trans grown
  rcases steady.named_or_refused full with ⟨earlier, first, interned, known⟩ | ⟨shard, _, again⟩
  · have same := named.unique (known.mono extended)
    subst same
    rw [units.provider?_eq steady.table whole.resolver] at unprovided
    have obtained := (obtains steady interned).2
    rcases (obtained.embedded unprovided ((whole.embeddable_iff full).mp embeddable)).2 with
      ⟨info, held⟩
    exact ⟨info, since.embedded held⟩
  · have refused := again interner extended
    rw [named.internAttribute_eq] at refused
    cases refused

end Again

section EmbeddedTypes

variable (catalogued : session.Catalogued requests)

include catalogued

theorem made_of_entry {entry : Name × AttributeInfo} {store : UnitStore} {definition : TypeDef}
    (member : entry ∈ session.attributes.embedded)
    (leads : entry.2.tycon.definition? store = some definition) :
    ∃ full names, Made requests session entry.1 entry.2 full names definition := by
  rcases catalogued.embedded member with ⟨full, names, made, entered⟩
  rw [entered.described] at leads
  cases leads
  exact ⟨full, names, entered⟩

theorem definition?_of_entry {entry : Name × AttributeInfo} (store : UnitStore)
    (member : entry ∈ session.attributes.embedded) :
    entry.2.tycon.definition? store = entry.2.tycon.definition? session.units := by
  rcases catalogued.embedded member with ⟨full, names, made, entered⟩
  rw [entered.described]
  rfl

omit catalogued in
theorem eq_of_simple {first second : String} (inFirst : first ∈ embeddableAttributes)
    (inSecond : second ∈ embeddableAttributes)
    (same : (Dotted.splitLast first).2 = (Dotted.splitLast second).2) : first = second := by
  have distinct : (embeddableAttributes.map fun full => (Dotted.splitLast full).2).Nodup := by
    decide +kernel
  exact List.inj_on_of_nodup_map distinct inFirst inSecond same

theorem pairwise_stamps :
    (session.attributes.embedded.filterMap fun entry =>
      entry.2.tycon.definition? session.units).Pairwise fun first second =>
        first.stamp ≠ second.stamp := by
  rw [List.pairwise_filterMap]
  have keys : session.attributes.embedded.Pairwise fun first second => first.1 ≠ second.1 :=
    List.pairwise_map.mp catalogued.distinct
  refine keys.imp_of_mem ?_
  intro first second inFirst inSecond apart left leftLeads right rightLeads stamps
  apply apart
  rcases made_of_entry catalogued inFirst leftLeads with ⟨full, names, madeLeft⟩
  rcases made_of_entry catalogued inSecond rightLeads with ⟨other, again, madeRight⟩
  have one : left = right := catalogued.units.eq_of_stamp
    (UnitStore.mem_of_lookup madeLeft.defined) (UnitStore.mem_of_lookup madeRight.defined) stamps
  have place := catalogued.units.placed madeLeft.defined
  rw [one, catalogued.units.placed madeRight.defined] at place
  have simple : again.name = names.name := congrArg (fun place => place.2.2) place
  have reads : session.interner.Spells full names.path again.name :=
    simple ▸ madeLeft.named.toSpells
  have same := eq_of_simple madeLeft.embeddable.1 madeRight.embeddable.1
    (reads.simple_eq catalogued.interner madeRight.named.toSpells)
  subst same
  rw [madeLeft.key, madeRight.key, madeLeft.named.unique madeRight.named]

/-- The embedded types are listed by their stamps, none twice. -/
theorem embeddedTypes_sorted :
    session.embeddedTypes.Pairwise fun first second => first.stamp.order < second.stamp.order := by
  let made := session.attributes.embedded.filterMap fun entry =>
    entry.2.tycon.definition? session.units
  have sorted : (made.mergeSort fun first second => first.stamp.order ≤ second.stamp.order).Pairwise
      fun first second => decide (first.stamp.order ≤ second.stamp.order) = true := by
    apply List.pairwise_mergeSort
    case trans =>
      intro first second third below above
      exact decide_eq_true (Nat.le_trans (of_decide_eq_true below) (of_decide_eq_true above))
    case total =>
      intro first second
      rw [Bool.or_eq_true, decide_eq_true_eq, decide_eq_true_eq]
      exact Nat.le_total ..
  have apart : (made.mergeSort fun first second => first.stamp.order ≤ second.stamp.order).Pairwise
      fun first second => first.stamp ≠ second.stamp :=
    (List.mergeSort_perm made _).symm.pairwise (pairwise_stamps catalogued) Ne.symm
  refine (sorted.and apart).imp ?_
  rintro ⟨⟨first⟩, _⟩ ⟨⟨second⟩, _⟩ ⟨below, different⟩
  exact Nat.lt_of_le_of_ne (of_decide_eq_true below) fun same => different (congrArg Stamp.mk same)

theorem embeddedTypes_withEmbedded (interner : Interner) (names : AttributeNames) :
    (session.withEmbedded interner names).embeddedTypes.Perm
      ((session.embeddedType names).1 :: session.embeddedTypes) := by
  have before : (session.attributes.embedded.filterMap fun entry =>
      entry.2.tycon.definition? (session.embeddedType names).2) =
      session.attributes.embedded.filterMap fun entry =>
        entry.2.tycon.definition? session.units := by
    apply List.filterMap_congr
    intro entry member
    exact definition?_of_entry catalogued _ member
  have split : ((session.withEmbedded interner names).attributes.embedded.filterMap fun entry =>
      entry.2.tycon.definition? (session.withEmbedded interner names).units) =
      (session.attributes.embedded.filterMap fun entry =>
        entry.2.tycon.definition? session.units) ++ [(session.embeddedType names).1] := by
    rw [← before]
    exact List.filterMap_append
  refine (List.mergeSort_perm _ _).trans ?_
  rw [split]
  exact List.perm_append_comm.trans ((List.mergeSort_perm _ _).symm.cons _)

end EmbeddedTypes

section Settled

def Provided (listed : List CompilationUnit) (session : Session) (names : AttributeNames) : Prop :=
  ∃ unit ∈ listed, session.units.defines unit.id names.path names.name true = true

/-- What a request for the attribute gives, and what it leaves of the units and of the catalogue. -/
structure Supplied (listed : List CompilationUnit) (requests : List Request) (full : String)
    (names : AttributeNames) (session next : Session) : Prop where
  /-- the first listed unit that defines the attribute publicly provides it -/
  provided : ∀ unit,
    session.outcome (findOrEmbedAttribute full) =
        .ok (.inUnit (.found unit) names.path names.name) ↔
      (listed.find? fun unit =>
        session.units.defines unit.id names.path names.name true) = some unit
  /-- if there is one, nothing changes -/
  provided_keeps : Provided listed session names →
    next.units = session.units ∧ next.attributes = session.attributes
  /-- else a marker attribute is embedded, if the language version allows it -/
  embedded : (∃ definition, session.outcome (findOrEmbedAttribute full) =
      .ok (.embedded definition names.path names.name)) ↔
    ¬ Provided listed session names ∧ session.Embeddable full
  /-- the first request lists one type more, which is the one definition that may be new -/
  first_adds : ∀ definition, session.outcome (findOrEmbedAttribute full) =
      .ok (.embedded definition names.path names.name) → .findOrEmbedAttribute full ∉ requests →
    next.embeddedTypes.Perm (definition :: session.embeddedTypes) ∧
      definition.place = (session.localUnit.id, names.path, names.name) ∧
      (∀ other, other ∈ next.units.definitions ↔
        other ∈ session.units.definitions ∨ other = definition) ∧
      ∀ unit, unit ≠ session.localUnit.id →
        next.units.contentsOf unit = session.units.contentsOf unit
  /-- later ones add nothing -/
  later_keeps : ∀ definition, session.outcome (findOrEmbedAttribute full) =
      .ok (.embedded definition names.path names.name) → .findOrEmbedAttribute full ∈ requests →
    next.units = session.units ∧ next.attributes = session.attributes
  /-- any other attribute is refused, and nothing changes -/
  refused : session.outcome (findOrEmbedAttribute full) = .error (.error (.notEmbeddable full)) ↔
    ¬ Provided listed session names ∧ ¬ session.Embeddable full
  refused_keeps : session.outcome (findOrEmbedAttribute full) =
      .error (.error (.notEmbeddable full)) →
    next.units = session.units ∧ next.attributes = session.attributes

theorem provided_iff (table : session.resolver = .table listed) (names : AttributeNames) :
    Provided listed session names ↔ ∃ unit, session.provider? names = some unit := by
  rw [provider?_table table, ← Option.isSome_iff_exists, List.find?_isSome]
  rfl

theorem not_provided_iff (table : session.resolver = .table listed) (names : AttributeNames) :
    ¬ Provided listed session names ↔ session.provider? names = none := by
  rw [provided_iff table, Option.eq_none_iff_forall_ne_some, not_exists]

section Request

variable (steady : session.Steady listed requests)
  (interned : Interner.internAttribute full session.interner = .ok names interner)

include steady interned

theorem first_adds {definition : TypeDef}
    (gives : session.outcome (findOrEmbedAttribute full) =
      .ok (.embedded definition names.path names.name))
    (unasked : .findOrEmbedAttribute full ∉ requests) :
    let next := session.after (findOrEmbedAttribute full)
    next.embeddedTypes.Perm (definition :: session.embeddedTypes) ∧
      definition.place = (session.localUnit.id, names.path, names.name) ∧
      (∀ other, other ∈ next.units.definitions ↔
        other ∈ session.units.definitions ∨ other = definition) ∧
      ∀ unit, unit ≠ session.localUnit.id →
        next.units.contentsOf unit = session.units.contentsOf unit := by
  have named := Interner.named_of_internAttribute interned
  have split := (obtains steady interned).2
  rw [split.eq_supply, supply_eq_embedded_iff] at gives
  rcases gives with ⟨unprovided, embeddable, rfl⟩
  have new := lookup_embedded_of_unasked steady named.1 named.2 unasked
  rcases split.adds new unprovided embeddable with ⟨other, units, attributes⟩
  have types : (session.after (findOrEmbedAttribute full)).embeddedTypes =
      (session.withEmbedded other names).embeddedTypes := by
    rw [embeddedTypes, embeddedTypes, units, attributes]
  refine ⟨?_, ?_, ?_, ?_⟩
  · rw [types]
    exact embeddedTypes_withEmbedded steady.toCatalogued other names
  · exact UnitStore.define_place steady.units session.localUnit.id _
  · intro definition
    rw [units]
    exact session.units.mem_definitions_define_iff session.localUnit.id _
  · intro unit apart
    rw [units]
    exact UnitStore.contentsOf_define_of_ne _ apart

theorem supplied (asked : .findOrEmbedAttribute full ∈ requests → session.provider? names = none →
      session.Embeddable full → ∃ info, session.attributes.embedded.lookup names.key = some info) :
    Supplied listed requests full names session (session.after (findOrEmbedAttribute full)) := by
  have split := (obtains steady interned).2
  have gives := split.eq_supply
  constructor
  case provided =>
    intro unit
    rw [gives, supply_eq_found_iff, provider?_table steady.table]
  case provided_keeps =>
    intro there
    exact split.keeps (Or.inr (Or.inl ((provided_iff steady.table names).mp there)))
  case embedded =>
    simp only [gives, supply_eq_embedded_iff, not_provided_iff steady.table, exists_and_left,
      exists_eq, and_true]
  case first_adds =>
    intro definition embedded unasked
    exact first_adds steady interned embedded unasked
  case later_keeps =>
    intro definition embedded before
    rw [gives, supply_eq_embedded_iff] at embedded
    exact split.keeps (Or.inr (Or.inr (asked before embedded.1 embedded.2.1)))
  case refused => rw [gives, supply_eq_refused_iff, not_provided_iff steady.table]
  case refused_keeps => exact fun refused => split.keeps (Or.inl ⟨_, refused⟩)

end Request

theorem supplied_of_served (steady : start.Steady listed [])
    (spares : ∀ request ∈ requests, request.Spares listed) (full : String) :
    let session := start.served requests
    let next := session.after (findOrEmbedAttribute full)
    (∃ shard, session.outcome (findOrEmbedAttribute full) = .error (fullShard shard) ∧
      next.interner.Exhausted shard ∧ next.units = session.units ∧
      next.attributes = session.attributes) ∨
    ∃ names, next.interner.Names full names ∧ Supplied listed requests full names session next := by
  intro session next
  have last : session.Steady listed requests := (steady.served requests spares).1
  cases interned : Interner.internAttribute full session.interner with
  | error shard interner =>
      have run := findOrEmbedAttribute_eq last.toCatalogued full
      simp only [interned] at run
      rcases ((Interner.stops_internAttribute session.interner full).of_error interned).2
        last.interner with ⟨shard, rfl, exhausted⟩
      refine Or.inl ⟨shard, ?_⟩
      simp only [outcome, next, after, run, and_true, true_and]
      exact exhausted
  | ok names interner =>
      have named := Interner.named_of_internAttribute interned
      have reached : next.interner = interner := (obtains last interned).1
      refine Or.inr ⟨names, reached ▸ named.2, supplied last interned ?_⟩
      intro asked unprovided embeddable
      rcases List.append_of_mem asked with ⟨earlier, later, rfl⟩
      have parts : session =
          ((start.served earlier).after (findOrEmbedAttribute full)).served later := by
        rw [show session = start.served (earlier ++ _ :: later) from rfl, served_append,
          Request.perform, after_discard]
      have before := (steady.served earlier fun request member =>
        spares request (List.mem_append_left _ member)).1
      have grown := named.1
      rw [parts] at grown unprovided embeddable ⊢
      refine lookup_embedded_again before ?_ grown named.2 unprovided embeddable
      intro request member
      exact spares request (List.mem_append_right _ (List.mem_cons_of_mem _ member))

end Settled

/-- Whatever is asked, and defined outside the listed units, in a session that looks attributes up
in a table of other units. -/
theorem embeddings_settled (created : start.Created) (table : start.resolver = .table listed)
    (apart : ∀ unit ∈ listed, unit.id ≠ start.localUnit.id) (requests : List Request)
    (spares : ∀ request ∈ requests, request.Spares listed) :
    let session := start.served requests
    -- a request for an attribute comes to the same whenever it is made again
    (∀ full more, (∀ request ∈ more, request.Spares listed) →
      (start.served (requests ++ .findOrEmbedAttribute full :: more)).outcome
        (findOrEmbedAttribute full) = session.outcome (findOrEmbedAttribute full)) ∧
    -- it is provided, embedded or refused by the listed units and the name alone
    (∀ full,
      let next := session.after (findOrEmbedAttribute full)
      (∃ shard, session.outcome (findOrEmbedAttribute full) = .error (fullShard shard) ∧
        next.interner.Exhausted shard ∧ next.units = session.units ∧
        next.attributes = session.attributes) ∨
      ∃ names, next.interner.Names full names ∧
        Supplied listed requests full names session next) ∧
    -- the embedded types are listed by their stamps, none twice
    session.embeddedTypes.Nodup ∧
    session.embeddedTypes.Pairwise fun first second => first.stamp.order < second.stamp.order := by
  have steady := created.steady table apart
  have last := (steady.served requests spares).1
  have sorted := embeddedTypes_sorted last.toCatalogued
  refine ⟨?_, fun full => supplied_of_served steady spares full, ?_, sorted⟩
  · intro full more since
    rw [served_append, Request.perform, after_discard]
    exact outcome_findOrEmbedAttribute_again last full more since
  · refine sorted.imp ?_
    rintro first second below rfl
    exact Nat.lt_irrefl _ below

/-- A marker attribute beside a library that defines nothing: it is embedded by the first request,
and the second one gives the same. -/
theorem embeddings_settled_marker :
    ∃ (start : Session) (library : CompilationUnit) (info : AttributeInfo) (definition : TypeDef),
      start.Created ∧ start.resolver = .table [library] ∧ library.id ≠ start.localUnit.id ∧
      let full := "System.Runtime.CompilerServices.IsReadOnlyAttribute"
      start.outcome (findOrEmbedAttribute full) = .ok info ∧
      info.tycon = .direct definition ∧
      (start.after (findOrEmbedAttribute full)).embeddedTypes = [definition] ∧
      (start.served [.findOrEmbedAttribute full]).outcome (findOrEmbedAttribute full) =
        .ok info := by
  let own := ({} : UnitStore).addUnit Name.empty .compiled
  let library := own.2.addUnit Name.empty .referenced
  let setup : SessionSetup :=
    { units := library.2, localUnit := own.1, resolver := .table [library.1] }
  have reached : setup.units.Reachable :=
    .tail (.single (.addUnit Name.empty .compiled)) (.addUnit Name.empty .referenced)
  have accepted : setup.config.validate = .ok () := rfl
  rcases exists_spacious accepted reached with
    ⟨start, created, config, units, resolver, follows, room⟩
  have apart : ∀ unit ∈ [library.1], unit.id ≠ start.localUnit.id := by
    rw [follows.localUnit]
    decide
  let full := "System.Runtime.CompilerServices.IsReadOnlyAttribute"
  have embeddable : start.Embeddable full := ⟨List.mem_cons_self, by rw [config]; decide⟩
  have unprovided (names : AttributeNames) : start.provider? names = none := by
    rw [provider?_table resolver, units]
    rfl
  rcases created.embeds room embeddable unprovided with ⟨names, interner, interned, run⟩
  have embedded : start.outcome (findOrEmbedAttribute full) =
      .ok (.embedded (start.embeddedType names).1 names.path names.name) := by
    rw [outcome, run]
  have nothing : start.embeddedTypes = [] := by
    simp [embeddedTypes, AttributeCatalogue.embeddedTypes, created.fresh.embedded]
  rcases embeddings_settled created resolver apart [] (by simp) with ⟨again, supplies, _⟩
  rcases supplies full with ⟨shard, refused, _⟩ | ⟨others, named, supplied⟩
  · have clash := embedded.symm.trans refused
    cases clash
  · rw [served, List.foldl_nil, after, run] at named
    have same := named.unique (Interner.named_of_internAttribute interned).2
    subst same
    have listed := (supplied.first_adds _ embedded List.not_mem_nil).1
    rw [show (start.served []).embeddedTypes = [] from nothing, List.perm_singleton] at listed
    refine ⟨start, library.1, _, _, created, resolver, ?_, embedded, rfl, listed, ?_⟩
    · exact apart library.1 List.mem_cons_self
    · exact (again full [] (by simp)).trans embedded

end Session

end TypeEnv
