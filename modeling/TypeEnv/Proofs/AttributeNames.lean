import TypeEnv.Proofs.Catalogue

/-!
The names of an attribute: of its full name, and of the parts that the full name is cut into. They
are interned once. From then on, whatever else is interned, the attribute has the same names, or is
refused for the same shard.
-/

namespace TypeEnv

def ended {ε σ α : Type} (answer : Except ε α) (state : σ) : EStateM.Result ε σ α :=
  match answer with
  | .ok value => .ok value state
  | .error failure => .error failure state

/-- From the state `before`, the computation only adds strings. Done again in any later state, it
comes to the same and adds none. -/
def Settles {α : Type} (before : Interner) (action : Interning α) : Prop :=
  ∃ answer after, action before = ended answer after ∧ before.Extends after ∧
    ∀ later, after.Extends later → action later = ended answer later

section Settles

variable {α β : Type} {before : Interner} {action : Interning α} {following : α → Interning β}

theorem settles_pure (value : α) : Settles before (pure value : Interning α) :=
  ⟨.ok value, before, rfl, .refl before, fun _ _ => rfl⟩

theorem settles_bind (first : Settles before action)
    (rest : ∀ value middle, before.Extends middle → Settles middle (following value)) :
    Settles before (action >>= following) := by
  rcases first with ⟨answer, middle, outcome, grown, again⟩
  cases answer with
  | error full =>
      refine ⟨.error full, middle, ?_, grown, ?_⟩
      · simp only [bind, EStateM.bind, outcome, ended]
      · intro later extended
        simp only [bind, EStateM.bind, again later extended, ended]
  | ok value =>
      rcases rest value middle grown with ⟨result, after, finish, extended, repeated⟩
      refine ⟨result, after, ?_, grown.trans extended, ?_⟩
      · simp only [bind, EStateM.bind, outcome, ended, finish]
      · intro later since
        simp only [bind, EStateM.bind, again later (extended.trans since), ended,
          repeated later since]

theorem settles_mapM {items : List β} {entry : β → Interning α}
    (each : ∀ item before, before.WellFormed → Settles before (entry item))
    (wellFormed : before.WellFormed) : Settles before (items.mapM entry) := by
  induction items generalizing before with
  | nil =>
      rw [List.mapM_nil]
      exact settles_pure []
  | cons item rest ih =>
      rw [List.mapM_cons]
      refine settles_bind (each item before wellFormed) fun value middle grown => ?_
      exact settles_bind (ih (grown.wellFormed wellFormed)) fun _ _ _ => settles_pure _

end Settles

namespace Interner

variable {interner before after later : Interner} {text full : String} {name : Name}
  {path : NamespacePath}

theorem WellFormed.tryIntern_again (wellFormed : before.WellFormed) {shard : ShardFull}
    (refused : before.tryIntern text = .error shard) (grown : before.Extends later) :
    later.tryIntern text = .error shard := by
  have laterFormed := grown.wellFormed wellFormed
  rcases wellFormed.tryIntern_eq_error_iff.mp refused with ⟨rfl, new, isFull⟩
  have strings : (before.shardOf text).strings = (later.shardOf text).strings := by
    have start : (before.shardOf text).strings <+: (later.shardOf text).strings := by
      simp only [shardOf, grown.selector]
      exact (grown.shards (before.selector.pick text)).strings
    apply start.eq_of_length_le
    rw [isFull]
    exact (laterFormed.shards _).fits
  have unknown : later.get? text = none := by
    rw [← Option.not_isSome_iff_eq_none] at new ⊢
    rwa [laterFormed.isSome_get?_iff, ← strings, ← wellFormed.isSome_get?_iff]
  rw [laterFormed.tryIntern_eq_error_iff, ← strings, grown.selector]
  exact ⟨rfl, unknown, isFull⟩

theorem settles_intern (wellFormed : before.WellFormed) (text : String) :
    Settles before (intern text) := by
  cases outcome : before.tryIntern text with
  | ok interned =>
      have run : intern text before = .ok interned.1 interned.2 := by
        simp only [intern, outcome]
      have added := ensures_intern before text interned.1 interned.2 run
      refine ⟨.ok interned.1, interned.2, run, added.1, ?_⟩
      intro later extended
      exact intern_of_get? (get?_mono extended.toGrows added.2)
  | error shard =>
      refine ⟨.error shard, before, ?_, .refl before, ?_⟩
      · simp only [intern, outcome, ended]
      · intro later extended
        simp only [intern, wellFormed.tryIntern_again outcome extended, ended]

theorem settles_internTypeName (wellFormed : before.WellFormed) (full : String) :
    Settles before (internTypeName full) := by
  have path : Settles before (internPath (Dotted.splitLast full).1) := by
    simp only [internPath]
    split
    case isTrue => exact settles_pure _
    case isFalse =>
      refine settles_bind (settles_mapM ?_ wellFormed) fun _ _ _ => settles_pure _
      exact fun text state wellFormed => settles_intern wellFormed text
  refine settles_bind path fun _ middle grown => ?_
  exact settles_bind (settles_intern (grown.wellFormed wellFormed) _) fun _ _ _ => settles_pure _

section Spells

variable {other : String} {otherPath : NamespacePath} {otherName : Name}

theorem Spells.mono (spelled : before.Spells full path name) (grown : before.Grows after) :
    after.Spells full path name :=
  ⟨grown.names spelled.path, get?_mono grown spelled.name⟩

theorem Spells.unique (spelled : interner.Spells full path name)
    (again : interner.Spells full otherPath otherName) : path = otherPath ∧ name = otherName := by
  have segments := spelled.path.trans again.path.symm
  rw [List.map_inj_right fun _ _ => Option.some.inj] at segments
  have names := spelled.name.symm.trans again.name
  exact ⟨congrArg NamespacePath.mk segments, Option.some.inj names⟩

theorem Spells.simple_eq (spelled : interner.Spells full path name)
    (wellFormed : interner.WellFormed) (again : interner.Spells other otherPath name) :
    (Dotted.splitLast full).2 = (Dotted.splitLast other).2 :=
  wellFormed.get?_injective spelled.name again.name

theorem Spells.internTypeName_eq (spelled : interner.Spells full path name) :
    internTypeName full interner = .ok (path, name) interner := by
  have space := internPath_of_known spelled.locates.path
  simp only [internTypeName, bind, EStateM.bind, space, intern_of_get? spelled.name, pure,
    EStateM.pure]

def Knows (interner : Interner) (path : NamespacePath) (name : Name) : Prop :=
  ∀ segment ∈ name :: path.segments, (interner.lookup? segment).isSome

theorem lookup?_mono (read : before.lookup? name = some text) (grown : before.Grows after) :
    after.lookup? name = some text := by
  have start := (grown.shards name.shard).strings
  rw [lookup?, List.getElem?_eq_some_iff] at read
  rcases read with ⟨within, rfl⟩
  exact List.prefix_iff_getElem?.mp start name.index within

theorem text_mono (known : (before.lookup? name).isSome) (grown : before.Grows after) :
    after.text name = before.text name := by
  rcases Option.isSome_iff_exists.mp known with ⟨read, found⟩
  rw [text, text, found, lookup?_mono found grown]

theorem Knows.mono (knows : before.Knows path name) (grown : before.Grows after) :
    after.Knows path name := by
  intro segment member
  rcases Option.isSome_iff_exists.mp (knows segment member) with ⟨text, read⟩
  rw [lookup?_mono read grown]
  rfl

theorem Knows.qualify_eq (knows : before.Knows path name) (grown : before.Grows after) :
    path.qualify name after = path.qualify name before := by
  have simple := text_mono (knows name List.mem_cons_self) grown
  have space : path.segments.map after.text = path.segments.map before.text := by
    apply List.map_congr_left
    intro segment member
    exact text_mono (knows segment (List.mem_cons_of_mem name member)) grown
  simp only [NamespacePath.qualify, NamespacePath.dotted, simple, space]

theorem Locates.knows {space simple : String} (located : interner.Locates space simple path name)
    (wellFormed : interner.WellFormed) : interner.Knows path name := by
  intro segment member
  have spelledOut : ∃ text, interner.get? text = some segment := by
    rcases List.mem_cons.mp member with rfl | inside
    · exact ⟨_, located.name⟩
    · have present : some segment ∈ path.segments.map some := List.mem_map_of_mem inside
      rw [located.path, List.mem_map] at present
      rcases present with ⟨text, _, known⟩
      exact ⟨text, known⟩
  rcases spelledOut with ⟨text, known⟩
  rw [wellFormed.lookup?_of_get? known]
  rfl

theorem Spells.knows (spelled : interner.Spells full path name) (wellFormed : interner.WellFormed) :
    interner.Knows path name :=
  spelled.locates.knows wellFormed

/-- Names that are known already are the ones that a string gets later. -/
theorem Spells.of_knows (spelled : after.Spells full path name) (wellFormed : before.WellFormed)
    (grown : before.Extends after) (knows : before.Knows path name) :
    before.Spells full path name := by
  have back {text : String} {segment : Name} (member : segment ∈ name :: path.segments)
      (known : after.get? text = some segment) : before.get? text = some segment := by
    rcases Option.isSome_iff_exists.mp (knows segment member) with ⟨read, found⟩
    have later := (grown.wellFormed wellFormed).lookup?_of_get? known
    rw [lookup?_mono found grown.toGrows] at later
    rw [← Option.some.inj later]
    exact wellFormed.lookup?_eq_some_iff.mp found
  have segments := map_some_eq_iff.mp spelled.path
  rw [List.forall₂_iff_zip] at segments
  refine ⟨map_some_eq_iff.mpr (List.forall₂_iff_zip.mpr ⟨segments.1, ?_⟩), ?_⟩
  · intro segment text member
    exact back (List.mem_cons_of_mem name (List.of_mem_zip member).1) (segments.2 member)
  · exact back List.mem_cons_self spelled.name

theorem WellFormed.map_text (wellFormed : interner.WellFormed) {texts : List String}
    {names : List Name} (known : names.map some = texts.map interner.get?) :
    names.map interner.text = texts := by
  rw [← List.forall₂_eq_eq_eq, List.forall₂_map_left_iff]
  exact (map_some_eq_iff.mp known).imp fun _ _ found => wellFormed.text_of_get? found

theorem Spells.qualify_eq {first second : Interner} (spelled : first.Spells full path name)
    (firstFormed : first.WellFormed) (again : second.Spells full otherPath otherName)
    (secondFormed : second.WellFormed) :
    path.qualify name first = otherPath.qualify otherName second := by
  have simple : first.text name = second.text otherName := by
    rw [firstFormed.text_of_get? spelled.name, secondFormed.text_of_get? again.name]
  have space : path.segments.map first.text = otherPath.segments.map second.text := by
    rw [firstFormed.map_text spelled.path, secondFormed.map_text again.path]
  have root : path.isRoot = otherPath.isRoot := by
    have empty := congrArg List.isEmpty space
    rwa [List.isEmpty_map, List.isEmpty_map] at empty
  simp only [NamespacePath.qualify, NamespacePath.dotted, simple, space, root]

end Spells

end Interner

/-- What was found, and the text about what was not, stays as it is when more is interned. -/
theorem Resolver.resolveOrDefer_mono {before after : Interner} {path : NamespacePath} {name : Name}
    (resolver : Resolver) (store : UnitStore) (knows : before.Knows path name)
    (grown : before.Grows after) (publicOnly : Bool) :
    resolver.resolveOrDefer store after path name publicOnly =
      resolver.resolveOrDefer store before path name publicOnly := by
  simp only [resolveOrDefer, UnitRef.missing, notFoundText, knows.qualify_eq grown]

theorem Resolver.table_congr {listed : List CompilationUnit} {first second : UnitStore}
    {path : NamespacePath} {name : Name} {publicOnly : Bool}
    (same : ∀ unit ∈ listed, first.defines unit.id path name publicOnly =
      second.defines unit.id path name publicOnly) :
    (table listed).resolve first path name publicOnly =
      (table listed).resolve second path name publicOnly := by
  simp only [table]
  induction listed with
  | nil => rfl
  | cons unit rest ih =>
      rw [List.find?_cons, List.find?_cons, same unit List.mem_cons_self,
        ih fun other member => same other (List.mem_cons_of_mem unit member)]

theorem Resolver.table_of_undefined {store : UnitStore} (undefined : store.definitions = [])
    (listed : List CompilationUnit) (path : NamespacePath) (name : Name) (publicOnly : Bool) :
    (table listed).resolve store path name publicOnly = none := by
  apply List.find?_eq_none.mpr
  intro unit _
  rw [UnitStore.defines, UnitStore.lookup_of_undefined undefined, Option.any_none]
  exact Bool.false_ne_true

structure AttributeNames where
  /-- of the full name -/
  key : Name
  path : NamespacePath
  name : Name

namespace Interner

variable {interner before after later : Interner} {full other : String}
  {names again : AttributeNames} {shard : ShardFull}

def internAttribute (full : String) : Interning AttributeNames := do
  let key ← intern full
  let (path, name) ← internTypeName full
  return ⟨key, path, name⟩

structure Names (interner : Interner) (full : String) (names : AttributeNames) : Prop extends
    interner.Spells full names.path names.name where
  key : interner.get? full = some names.key

theorem Names.mono (named : before.Names full names) (grown : before.Extends after) :
    after.Names full names :=
  ⟨named.toSpells.mono grown.toGrows, get?_mono grown.toGrows named.key⟩

theorem Names.unique (named : interner.Names full names) (twice : interner.Names full again) :
    names = again := by
  rcases names with ⟨key, path, name⟩
  rcases again with ⟨otherKey, otherPath, otherName⟩
  have parts := named.toSpells.unique twice.toSpells
  have keys := named.key.symm.trans twice.key
  rw [AttributeNames.mk.injEq]
  exact ⟨Option.some.inj keys, parts⟩

theorem Names.full_eq (named : interner.Names full names) (wellFormed : interner.WellFormed)
    (twice : interner.Names other again) (same : names.key = again.key) : full = other :=
  wellFormed.get?_injective named.key (same ▸ twice.key)

theorem Names.internAttribute_eq (named : interner.Names full names) :
    internAttribute full interner = .ok names interner := by
  simp only [internAttribute, bind, EStateM.bind, intern_of_get? named.key,
    named.toSpells.internTypeName_eq, pure, EStateM.pure]

theorem stops_internAttribute (before : Interner) (full : String) :
    StopsWhenFull id before (1 + typeNameRoom full) (internAttribute full) := by
  refine stopsWhenFull_bind (stops_intern before full) fun key withKey _ => ?_
  exact (stops_internTypeName withKey full).bind_pure _

theorem named_of_internAttribute (interned : internAttribute full before = .ok names after) :
    before.Extends after ∧ after.Names full names := by
  have ensured : Ensures before (internAttribute full) fun names after =>
      before.Extends after ∧ after.Names full names := by
    refine ensures_bind (ensures_intern before full) fun key withKey keyed => ?_
    refine ensures_bind (ensures_internTypeName withKey full) fun place after placed => ?_
    apply ensures_pure
    exact ⟨keyed.1.trans placed.1, placed.2, get?_mono placed.1.toGrows keyed.2⟩
  exact ensured names after interned

theorem exists_internAttribute {count : Nat} (room : before.Room count)
    (fits : (Dotted.segments (Dotted.splitLast full).1).length + 2 ≤ count) :
    ∃ names after, internAttribute full before = .ok names after := by
  have enough : before.Room (1 + typeNameRoom full + 0) := by
    apply room.weaken
    rw [typeNameRoom]
    omega
  obtain ⟨names, after, interned, _⟩ := (stops_internAttribute before full).exists_ok enough
  exact ⟨names, after, interned⟩

theorem settles_internAttribute (wellFormed : before.WellFormed) (full : String) :
    Settles before (internAttribute full) := by
  refine settles_bind (settles_intern wellFormed full) fun key withKey grown => ?_
  have formed := grown.wellFormed wellFormed
  refine settles_bind (settles_internTypeName formed full) fun place after _ => ?_
  exact settles_pure _

/-- An attribute that has no names because a shard is full never gets any. -/
theorem WellFormed.internAttribute_again (wellFormed : before.WellFormed)
    (refused : internAttribute full before = .error shard after) (grown : after.Extends later) :
    internAttribute full later = .error shard later := by
  rcases settles_internAttribute wellFormed full with ⟨answer, state, outcome, _, again⟩
  rw [refused] at outcome
  cases answer with
  | ok names => cases outcome
  | error full =>
      cases outcome
      exact again later grown

end Interner

end TypeEnv
