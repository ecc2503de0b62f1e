import TypeEnv.Proofs.TypeLookup

namespace TypeEnv

section Tables

variable {ε α κ : Type} {entry : κ → EStateM ε Interner α}

theorem Table.get_of_entries [Enumerated κ] {table : Table κ α} {relates : κ → α → Prop}
    (entries : List.Forall₂ relates Enumerated.all table.entries) (key : κ) :
    relates key (table.get key) := by
  have bound := (Enumerated.index key).isLt
  have entry := entries.get bound (table.length_entries.symm ▸ bound)
  have same : (Enumerated.all : List κ).get (Enumerated.index key) = key := Enumerated.get_index key
  simp only [List.get_eq_getElem] at entry same
  rw [same] at entry
  exact entry

section Each

variable {holds : κ → α → Interner → Prop}
  (lasting : ∀ key value before after, Interner.Extends before after → holds key value before →
    holds key value after)
  (each : ∀ key before, Ensures before (entry key) fun value after =>
    before.Extends after ∧ holds key value after)

include lasting each

theorem ensures_collect (keys : List κ) (before : Interner) :
    Ensures before (Table.collect entry keys) fun entries after =>
      before.Extends after ∧
        List.Forall₂ (fun key value => holds key value after) keys entries.val := by
  induction keys generalizing before with
  | nil => exact ensures_pure ⟨.refl before, .nil⟩
  | cons key keys ih =>
      refine ensures_bind (each key before) fun first middle now => ?_
      refine ensures_bind (ih middle) fun rest after later => ?_
      have kept := lasting key first middle after later.1 now.2
      apply ensures_pure
      exact ⟨now.1.trans later.1, .cons kept later.2⟩

theorem ensures_entries [Enumerated κ] (before : Interner) :
    Ensures before (Table.ofFnM entry) fun table after =>
      before.Extends after ∧
        List.Forall₂ (fun key value => holds key value after) Enumerated.all table.entries :=
  ensures_bind (ensures_collect lasting each Enumerated.all before)
    fun _ _ collected => ensures_pure collected

theorem ensures_ofFnM [Enumerated κ] (before : Interner) :
    Ensures before (Table.ofFnM entry) fun table after =>
      before.Extends after ∧ ∀ key, holds key (table.get key) after :=
  (ensures_entries lasting each before).weaken fun _ _ made =>
    ⟨made.1, Table.get_of_entries made.2⟩

end Each

end Tables

structure TyconRef.LookedUp (tycon : TyconRef) (text : String) (interner : Interner) : Prop where
  named : ∃ unit path name, tycon = .named unit path name
  name : interner.get? text = some tycon.name

theorem TyconRef.LookedUp.mono {tycon : TyconRef} {text : String} {before after : Interner}
    (lookedUp : tycon.LookedUp text before) (extended : before.Extends after) :
    tycon.LookedUp text after :=
  ⟨lookedUp.named, Interner.get?_mono extended.toGrows lookedUp.name⟩

theorem TyconRef.LookedUp.text_eq {first second : TyconRef} {left right : String}
    {interner : Interner} (lookedUpFirst : first.LookedUp left interner)
    (wellFormed : interner.WellFormed) (lookedUpSecond : second.LookedUp right interner)
    (same : first.Same second) : left = right := by
  have keys := (TyconRef.same_iff ..).mp same
  have names : first.name = second.name := congrArg TyconRef.Key.name keys
  exact wellFormed.get?_injective lookedUpFirst.name (names ▸ lookedUpSecond.name)

namespace TyconScope

def Refers (unit? : NamespacePath → Name → Option CompilationUnit) (tycon : TyconRef) : Prop :=
  ∃ seen, tycon =
    .named (.ofUnit? (unit? tycon.path tycon.name) tycon.path tycon.name seen) tycon.path tycon.name

/-- What is found in a scope: a type with a simple name, of the unit for host types or of the
standard library. -/
structure Finds (scope : TyconScope) (text : String) (tycon : TyconRef) (interner : Interner) :
    Prop extends tycon.LookedUp text interner where
  refers : Refers scope.hostUnit? tycon ∨ Refers (fun _ _ => scope.coreUnit?) tycon

variable {scope : TyconScope}

theorem Finds.mono {text : String} {tycon : TyconRef} {before after : Interner}
    (finds : scope.Finds text tycon before) (extended : before.Extends after) :
    scope.Finds text tycon after :=
  ⟨finds.toLookedUp.mono extended, finds.refers⟩

theorem Refers.inUnit {unit? : NamespacePath → Name → Option CompilationUnit} {tycon : TyconRef}
    {unit : CompilationUnit} (refers : Refers unit? tycon)
    (known : ∀ path name, unit? path name = some unit) :
    tycon = .inUnit unit tycon.path tycon.name := by
  obtain ⟨seen, same⟩ := refers
  rw [known] at same
  exact same

theorem Finds.inUnit {text : String} {tycon : TyconRef} {interner : Interner}
    {unit : CompilationUnit} (finds : scope.Finds text tycon interner)
    (host : ∀ path name, scope.hostUnit? path name = some unit)
    (core : scope.coreUnit? = some unit) : tycon = .inUnit unit tycon.path tycon.name := by
  rcases finds.refers with refers | refers
  · exact refers.inUnit host
  · exact refers.inUnit fun _ _ => core

theorem Finds.bootstrap {text : String} {tycon : TyconRef} {interner : Interner}
    (finds : scope.Finds text tycon interner) (compiling : scope.compilingStdLib = true) :
    tycon = .inUnit scope.localUnit tycon.path tycon.name :=
  finds.inUnit (fun _ _ => if_pos compiling) (if_pos compiling)

theorem References.lookedUp {space simple : String}
    {unit? : NamespacePath → Name → Option CompilationUnit} {tycon : TyconRef}
    {interner : Interner} (references : References space simple unit? tycon interner) :
    tycon.LookedUp simple interner ∧ Refers unit? tycon := by
  obtain ⟨path, name, located, rfl⟩ := references
  exact ⟨⟨⟨_, path, name, rfl⟩, located.name⟩, interner, rfl⟩

theorem ensures_host (scope : TyconScope) (space name : String) (before : Interner) :
    Ensures before (scope.host space name) fun tycon after =>
      before.Extends after ∧ scope.Finds name tycon after := by
  rw [host_eq_lookup]
  refine (ensures_lookup scope.hostUnit? before space name).weaken fun tycon after found => ?_
  exact ⟨found.1, found.2.lookedUp.1, Or.inl found.2.lookedUp.2⟩

theorem ensures_core (scope : TyconScope) (space name : String) (before : Interner) :
    Ensures before (scope.core space name) fun tycon after =>
      before.Extends after ∧ scope.Finds name tycon after := by
  rw [core_eq_lookup]
  let unit? : NamespacePath → Name → Option CompilationUnit := fun _ _ => scope.coreUnit?
  refine (ensures_lookup unit? before space name).weaken fun tycon after found => ?_
  exact ⟨found.1, found.2.lookedUp.1, Or.inr found.2.lookedUp.2⟩

theorem ensures_find (scope : TyconScope) (location : TyconLocation) (before : Interner) :
    Ensures before (scope.find location) fun tycon after =>
      before.Extends after ∧ scope.Finds location.name tycon after := by
  simp only [find]
  split
  · exact scope.ensures_host _ _ before
  · exact scope.ensures_core _ _ before

theorem ensures_table {κ : Type} [Enumerated κ] {entry : κ → Interning TyconRef}
    (scope : TyconScope) (text : κ → String)
    (each : ∀ key before, Ensures before (entry key) fun tycon after =>
      before.Extends after ∧ scope.Finds (text key) tycon after) (before : Interner) :
    Ensures before (Table.ofFnM entry) fun table after =>
      before.Extends after ∧ ∀ key, scope.Finds (text key) (table.get key) after :=
  ensures_ofFnM (fun _ _ _ _ extended finds => finds.mono extended) each before

theorem ensures_tuples (scope : TyconScope) (family : String) (before : Interner) :
    Ensures before (scope.tuples family) fun table after =>
      before.Extends after ∧ ∀ place : Fin maxTuple,
        scope.Finds (tupleTyconName family (place.val + 1)) (table.get place) after :=
  scope.ensures_table (fun place : Fin maxTuple => tupleTyconName family (place.val + 1))
    (fun place => scope.ensures_host systemNamespace (tupleTyconName family (place.val + 1))) before

section FullShards

variable (scope : TyconScope) (before : Interner)

theorem stops_host (space name : String) :
    StopsWhenFull id before ((Dotted.segments space).length + 1) (scope.host space name) := by
  rw [host_eq_lookup]
  exact stops_lookup scope.hostUnit? before space name

theorem stops_core (space name : String) :
    StopsWhenFull id before ((Dotted.segments space).length + 1) (scope.core space name) := by
  rw [core_eq_lookup]
  exact stops_lookup (fun _ _ => scope.coreUnit?) before space name

/-- The room that one look-up needs: no namespace of a well-known type has more than three
segments. -/
def lookupRoom : Nat := 4

theorem stops_systemHost (name : String) :
    StopsWhenFull id before lookupRoom (scope.host systemNamespace name) :=
  (scope.stops_host before systemNamespace name).weaken (by decide +kernel)

theorem stops_coreType (name : String) :
    StopsWhenFull id before lookupRoom (scope.core coreNamespace name) :=
  (scope.stops_core before coreNamespace name).weaken (by decide +kernel)

theorem stops_find (tycon : NamedTycon) :
    StopsWhenFull id before lookupRoom (scope.find tycon.location) := by
  have space : (Dotted.segments tycon.location.space).length ≤ 3 := by
    cases tycon <;> decide +kernel
  simp only [find]
  split
  · exact (scope.stops_host before _ _).weaken (by simp only [lookupRoom]; omega)
  · exact (scope.stops_core before _ _).weaken (by simp only [lookupRoom]; omega)

theorem stops_hostPrim (kind : PrimitiveKind) :
    StopsWhenFull id before lookupRoom (scope.hostPrim kind) := by
  simp only [hostPrim]
  split
  · exact (scope.stops_systemHost before _).map some
  · exact stopsWhenFull_pure _

theorem stops_corePrim (hostType : Option TyconRef) (kind : PrimitiveKind) :
    StopsWhenFull id before lookupRoom (scope.corePrim hostType kind) := by
  simp only [corePrim]
  split
  · exact stopsWhenFull_pure _
  · exact scope.stops_coreType before _

end FullShards

end TyconScope

def TupleKind.familyName : TupleKind → String
  | .reference => "Tuple"
  | .value => "ValueTuple"

namespace WellKnownTycons

def HostPrimFound (scope : TyconScope) (kind : PrimitiveKind) (entry : Option TyconRef)
    (interner : Interner) : Prop :=
  (∃ name tycon, kind.hostName? = some name ∧ entry = some tycon ∧
    scope.Finds name tycon interner) ∨
  kind.hostName? = none ∧ entry = none

def CorePrimFound (scope : TyconScope) (hostType : Option TyconRef) (kind : PrimitiveKind)
    (tycon : TyconRef) (interner : Interner) : Prop :=
  (∃ name, kind.coreName? = some name ∧ scope.Finds name tycon interner) ∨
  kind.coreName? = none ∧ hostType = some tycon

structure Located (tycons : WellKnownTycons) (scope : TyconScope) (interner : Interner) :
    Prop where
  hostPrims : ∀ kind, HostPrimFound scope kind (tycons.hostPrim? kind) interner
  corePrims : ∀ kind,
    CorePrimFound scope (tycons.hostPrim? kind) kind (tycons.corePrim kind) interner
  named : ∀ tycon : NamedTycon, scope.Finds tycon.location.name (tycons.get tycon) interner
  arrays : ∀ place : Fin maxArrayRank,
    scope.Finds (arrayTyconName (place.val + 1)) (tycons.arrays.get place) interner
  tuples : ∀ (kind : TupleKind) (place : Fin maxTuple),
    scope.Finds (tupleTyconName kind.familyName (place.val + 1))
      ((tycons.tuples.family kind).get place) interner

variable {scope : TyconScope} {before after : Interner}

theorem HostPrimFound.mono {kind : PrimitiveKind} {entry : Option TyconRef}
    (found : HostPrimFound scope kind entry before) (extended : before.Extends after) :
    HostPrimFound scope kind entry after := by
  rcases found with ⟨name, tycon, named, entered, finds⟩ | missing
  · exact Or.inl ⟨name, tycon, named, entered, finds.mono extended⟩
  · exact Or.inr missing

theorem CorePrimFound.mono {hostType : Option TyconRef} {kind : PrimitiveKind} {tycon : TyconRef}
    (found : CorePrimFound scope hostType kind tycon before) (extended : before.Extends after) :
    CorePrimFound scope hostType kind tycon after := by
  rcases found with ⟨name, named, finds⟩ | shared
  · exact Or.inl ⟨name, named, finds.mono extended⟩
  · exact Or.inr shared

theorem Located.mono {tycons : WellKnownTycons} (located : tycons.Located scope before)
    (extended : before.Extends after) : tycons.Located scope after where
  hostPrims kind := (located.hostPrims kind).mono extended
  corePrims kind := (located.corePrims kind).mono extended
  named tycon := (located.named tycon).mono extended
  arrays place := (located.arrays place).mono extended
  tuples kind place := (located.tuples kind place).mono extended

theorem ensures_hostPrim (scope : TyconScope) (kind : PrimitiveKind) (before : Interner) :
    Ensures before (scope.hostPrim kind) fun entry after =>
      before.Extends after ∧ HostPrimFound scope kind entry after := by
  cases named : kind.hostName? with
  | none =>
      simp only [TyconScope.hostPrim, named]
      exact ensures_pure ⟨.refl before, Or.inr ⟨named, rfl⟩⟩
  | some name =>
      simp only [TyconScope.hostPrim, named, map_eq_pure_bind]
      refine ensures_bind (scope.ensures_host systemNamespace name before) ?_
      intro tycon after found
      exact ensures_pure ⟨found.1, Or.inl ⟨name, tycon, named, rfl, found.2⟩⟩

theorem ensures_corePrim (scope : TyconScope) (hostType : Option TyconRef) (kind : PrimitiveKind)
    (present : kind.coreName? = none → hostType.isSome) (before : Interner) :
    Ensures before (scope.corePrim hostType kind) fun tycon after =>
      before.Extends after ∧ CorePrimFound scope hostType kind tycon after := by
  cases named : kind.coreName? with
  | none =>
      rcases Option.isSome_iff_exists.mp (present named) with ⟨tycon, rfl⟩
      simp only [TyconScope.corePrim, named]
      exact ensures_pure ⟨.refl before, Or.inr ⟨named, rfl⟩⟩
  | some name =>
      simp only [TyconScope.corePrim, named, Option.getD_some]
      refine (scope.ensures_core coreNamespace name before).weaken fun tycon after found => ?_
      exact ⟨found.1, Or.inl ⟨name, named, found.2⟩⟩

theorem hostName?_ne_none {kind : PrimitiveKind} (unnamed : kind.coreName? = none) :
    kind.hostName? ≠ none := by
  cases kind <;> simp [PrimitiveKind.coreName?, PrimitiveKind.hostName?] at unnamed ⊢

theorem HostPrimFound.isSome {kind : PrimitiveKind} {entry : Option TyconRef} {interner : Interner}
    (found : HostPrimFound scope kind entry interner) (unnamed : kind.coreName? = none) :
    entry.isSome := by
  rcases found with ⟨name, tycon, _, rfl, _⟩ | ⟨missing, _⟩
  · rfl
  · exact absurd missing (hostName?_ne_none unnamed)

theorem ensures_hostPrims (scope : TyconScope) (before : Interner) :
    Ensures before (Table.ofFnM scope.hostPrim) fun table after =>
      before.Extends after ∧ ∀ kind, HostPrimFound scope kind (table.get kind) after := by
  apply ensures_ofFnM
  case lasting => exact fun _ _ _ _ extended found => found.mono extended
  case each => exact ensures_hostPrim scope

theorem ensures_corePrims (scope : TyconScope) (hostPrims : Table PrimitiveKind (Option TyconRef))
    (present : ∀ kind : PrimitiveKind, kind.coreName? = none → (hostPrims.get kind).isSome)
    (before : Interner) :
    Ensures before (Table.ofFnM fun kind => scope.corePrim (hostPrims.get kind) kind)
      fun table after => before.Extends after ∧
        ∀ kind, CorePrimFound scope (hostPrims.get kind) kind (table.get kind) after := by
  apply ensures_ofFnM
  case lasting => exact fun _ _ _ _ extended found => CorePrimFound.mono found extended
  case each => exact fun kind => ensures_corePrim scope (hostPrims.get kind) kind (present kind)

theorem ensures_locate (scope : TyconScope) (before : Interner) :
    Ensures before (locate scope) fun tycons after =>
      before.Extends after ∧ tycons.Located scope after := by
  refine ensures_bind (ensures_hostPrims scope before) fun hostPrims withHosts hosts => ?_
  have present := fun kind => (hosts.2 kind).isSome
  refine ensures_bind (ensures_corePrims scope hostPrims present withHosts) ?_
  intro corePrims withCores cores
  refine ensures_bind (scope.ensures_table (fun tycon : NamedTycon => tycon.location.name)
    (fun tycon => scope.ensures_find tycon.location) withCores) ?_
  intro namedTycons withNamed named
  refine ensures_bind (scope.ensures_table
    (fun place : Fin maxArrayRank => arrayTyconName (place.val + 1))
    (fun place => scope.ensures_core coreNamespace (arrayTyconName (place.val + 1))) withNamed) ?_
  intro arrayTycons withArrays arrays
  refine ensures_bind (scope.ensures_tuples "Tuple" withArrays) ?_
  intro references withReferences referencesFound
  refine ensures_bind (scope.ensures_tuples "ValueTuple" withReferences) ?_
  intro values after valuesFound
  have fromArrays := referencesFound.1.trans valuesFound.1
  have fromNamed := arrays.1.trans fromArrays
  have fromCores := named.1.trans fromNamed
  have fromHosts := cores.1.trans fromCores
  apply ensures_pure
  refine ⟨hosts.1.trans fromHosts, ?_⟩
  constructor
  case hostPrims => exact fun kind => (hosts.2 kind).mono fromHosts
  case corePrims => exact fun kind => (cores.2 kind).mono fromCores
  case named => exact fun tycon => (named.2 tycon).mono fromNamed
  case arrays => exact fun place => (arrays.2 place).mono fromArrays
  case tuples =>
    intro kind place
    cases kind with
    | reference => exact (referencesFound.2 place).mono valuesFound.1
    | value => exact valuesFound.2 place

def tableRoom (κ : Type) [Enumerated κ] : Nat :=
  (Enumerated.all : List κ).length * TyconScope.lookupRoom

def locateRoom : Nat :=
  tableRoom PrimitiveKind + (tableRoom PrimitiveKind + (tableRoom NamedTycon +
    (tableRoom (Fin maxArrayRank) + (tableRoom (Fin maxTuple) + (tableRoom (Fin maxTuple) + 0)))))

theorem stops_locate (scope : TyconScope) (before : Interner) :
    StopsWhenFull id before locateRoom (locate scope) := by
  refine stopsWhenFull_bind (stopsWhenFull_ofFnM
    (fun kind state => scope.stops_hostPrim state kind) before) fun hostPrims withHosts _ => ?_
  refine stopsWhenFull_bind (stopsWhenFull_ofFnM
    (fun kind state => scope.stops_corePrim state _ kind) withHosts) fun _ withCores _ => ?_
  refine stopsWhenFull_bind (stopsWhenFull_ofFnM
    (fun tycon state => scope.stops_find state tycon) withCores) fun _ withNamed _ => ?_
  refine stopsWhenFull_bind (stopsWhenFull_ofFnM
    (fun place state => scope.stops_coreType state _) withNamed) fun _ withArrays _ => ?_
  refine stopsWhenFull_bind (stopsWhenFull_ofFnM
    (fun place state => scope.stops_systemHost state _) withArrays) fun _ withReferences _ => ?_
  refine stopsWhenFull_bind (stopsWhenFull_ofFnM
    (fun place state => scope.stops_systemHost state _) withReferences) fun _ _ _ => ?_
  exact stopsWhenFull_pure _

end WellKnownTycons

end TypeEnv
