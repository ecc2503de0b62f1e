import TypeEnv.Attribute.WellKnown
import TypeEnv.Proofs.Units
import TypeEnv.Proofs.WellKnown

namespace TypeEnv

def Dotted.namespaceTexts (full : String) : List String :=
  if (splitLast full).1.isEmpty then [] else segments (splitLast full).1

namespace Interner

variable {before after : Interner} {full : String}

structure Spells (interner : Interner) (full : String) (path : NamespacePath) (name : Name) :
    Prop where
  path : path.segments.map some = (Dotted.namespaceTexts full).map interner.get?
  name : interner.get? (Dotted.splitLast full).2 = some name

theorem Spells.locates {interner : Interner} {path : NamespacePath} {name : Name}
    (spelled : interner.Spells full path name) :
    interner.Locates (Dotted.splitLast full).1 (Dotted.splitLast full).2 path name :=
  ⟨spelled.path, spelled.name⟩

theorem ensures_internTypeName (before : Interner) (full : String) :
    Ensures before (internTypeName full) fun place after =>
      before.Extends after ∧ after.Spells full place.1 place.2 := by
  refine ensures_bind (ensures_internSpace before _) fun path middle spelled => ?_
  refine ensures_bind (ensures_intern middle (Dotted.splitLast full).2) ?_
  intro name after interned
  apply ensures_pure
  exact ⟨spelled.1.trans interned.1, interned.1.toGrows.names spelled.2, interned.2⟩

end Interner

namespace AttributeCatalogue

variable (catalogue : AttributeCatalogue) (resolver : Resolver) (store : UnitStore)
  (host : Option CompilationUnit) (full : String) (before : Interner)

theorem ensures_find :
    Ensures before (catalogue.find resolver store full) fun found after =>
      before.Extends after ∧ found.2.embedded = catalogue.embedded := by
  refine ensures_bind (Interner.stops_intern before full).ensures fun key withKey extended => ?_
  split
  case h_1 => exact ensures_pure ⟨extended, rfl⟩
  case h_2 =>
    refine ensures_bind (Interner.stops_internTypeName withKey full).ensures ?_
    intro place middle grown
    refine ensures_bind ensures_get fun interner state read => ?_
    rcases read with ⟨rfl, rfl⟩
    exact ensures_pure ⟨extended.trans grown, rfl⟩

theorem stops_find :
    StopsWhenFull id before (1 + Interner.typeNameRoom full)
      (catalogue.find resolver store full) := by
  refine stopsWhenFull_bind (Interner.stops_intern before full) fun key withKey _ => ?_
  split
  · exact stopsWhenFull_pure _
  · refine (Interner.stops_internTypeName withKey full).bind_free fun place after _ => ?_
    exact stopsWhenFull_get.bind_pure _

theorem stops_find? :
    StopsWhenFull id before (Interner.typeNameRoom full) (find? resolver store full) :=
  (Interner.stops_internTypeName before full).bind_pure _

theorem stops_findOrEmbed :
    StopsWhenFull id before (1 + (Interner.typeNameRoom full + Interner.typeNameRoom full))
      (catalogue.findOrEmbed resolver store host full) := by
  refine stopsWhenFull_bind (Interner.stops_intern before full) fun key withKey _ => ?_
  split
  case h_1 => exact stopsWhenFull_pure _
  case h_2 =>
    refine stopsWhenFull_bind (stops_find? resolver store full withKey) fun found withFound _ => ?_
    split
    case h_1 => exact stopsWhenFull_pure _
    case h_2 => exact stopsWhenFull_pure _
    case h_3 =>
      split
      case isTrue => exact (Interner.stops_internTypeName withFound full).bind_pure _
      case isFalse => exact stopsWhenFull_pure _

/-- What a request comes to that lists the definition that the unit has or gets under the name. -/
def listing (unit : CompilationUnit) (key : Name) (path : NamespacePath) (name : Name) :
    Embedding :=
  let defined := store.define unit.id (embeddedSpec path name)
  let info := AttributeInfo.embedded defined.1 path name
  ⟨info, { catalogue with embedded := catalogue.embedded ++ [(key, info)] }, defined.2⟩

/-- What a request for an attribute comes to when it is embedded if need be: nothing changes, or the
definition that the host has by then is listed. -/
inductive Embeds (interner : Interner) : Embedding → Prop where
  | nothing (info : AttributeInfo) : Embeds interner ⟨info, catalogue, store⟩
  | listed (unit : CompilationUnit) (key : Name) (path : NamespacePath) (name : Name)
    (allowed : host = some unit) (embeddable : full ∈ embeddableAttributes)
    (spelled : interner.Spells full path name) :
    Embeds interner (catalogue.listing store unit key path name)

theorem ensures_findOrEmbed :
    Ensures before (catalogue.findOrEmbed resolver store host full) fun outcome after =>
      ∀ embedding, outcome = .ok embedding →
        catalogue.Embeds store host full after embedding := by
  have refused {after : Interner} (error : SessionError) (embedding : Embedding)
      (outcome : Except.error error = Except.ok embedding) :
      catalogue.Embeds store host full after embedding := by
    cases outcome
  have kept {after : Interner} (info : AttributeInfo) (embedding : Embedding)
      (outcome : (.ok ⟨info, catalogue, store⟩ : Except SessionError Embedding) = .ok embedding) :
      catalogue.Embeds store host full after embedding := by
    cases outcome
    exact .nothing info
  refine ensures_bind (ensures_true _) fun key state _ => ?_
  split
  case h_1 info _ => exact ensures_pure (kept info)
  case h_2 =>
    refine ensures_bind (ensures_true _) fun found state _ => ?_
    split
    case h_1 info => exact ensures_pure (kept info)
    case h_2 => exact ensures_pure (refused _)
    case h_3 unit =>
      split
      case isTrue embeddable =>
        refine ensures_bind (Interner.ensures_internTypeName state full) ?_
        intro place after spelled
        apply ensures_pure
        intro embedding embedded
        cases embedded
        exact .listed unit key place.1 place.2 rfl embeddable spelled.2
      case isFalse => exact ensures_pure (refused _)

variable {full} in
theorem length_segments_le (embeddable : full ∈ embeddableAttributes) :
    (Dotted.segments (Dotted.splitLast full).1).length ≤ 3 := by
  have short : ∀ text ∈ embeddableAttributes,
      (Dotted.segments (Dotted.splitLast text).1).length ≤ 3 := by decide +kernel
  exact short full embeddable

variable {host full} in
/-- Where nothing is embedded yet and no unit is looked into, a request for a marker attribute
lists a definition, under one name whatever was defined before. -/
theorem exists_listing (unit : CompilationUnit) (embeddable : full ∈ embeddableAttributes)
    (nothing : catalogue.embedded = []) (room : before.Room 9) :
    ∃ key path name after, ∀ store,
      catalogue.findOrEmbed (.table []) store (some unit) full before =
        .ok (.ok (catalogue.listing store unit key path name)) after := by
  have segments := length_segments_le embeddable
  obtain ⟨key, withKey, interned, roomKey⟩ := (Interner.stops_intern before full).exists_ok
    (show before.Room (1 + 8) from room)
  have names (state : Interner) : StopsWhenFull id state 4 (Interner.internTypeName full) :=
    (Interner.stops_internTypeName state full).weaken (Nat.succ_le_succ segments)
  obtain ⟨looked, withLooked, foundLooked, roomLooked⟩ := (names withKey).exists_ok
    (show withKey.Room (4 + 4) from roomKey)
  obtain ⟨place, after, foundPlace, _⟩ := (names withLooked).exists_ok
    (show withLooked.Room (4 + 0) from roomLooked)
  refine ⟨key, place.1, place.2, after, ?_⟩
  intro store
  simp only [findOrEmbed, find?, bind, EStateM.bind, interned, nothing, List.lookup_nil,
    foundLooked, Resolver.table, List.find?, pure, EStateM.pure, Option.map_none,
    if_pos embeddable, foundPlace, listing, List.nil_append]

end AttributeCatalogue

namespace WellKnownAttributes

variable (resolver : Resolver) (store : UnitStore)

theorem ensures_findAll (attributes : List RequiredAttribute) (catalogue : AttributeCatalogue)
    (before : Interner) :
    Ensures before (findAll resolver store catalogue attributes) fun found after =>
      before.Extends after ∧ found.2.embedded = catalogue.embedded := by
  induction attributes generalizing catalogue before with
  | nil => exact ensures_pure ⟨.refl before, rfl⟩
  | cons attr rest ih =>
      refine ensures_bind (catalogue.ensures_find resolver store attr.fullName before) ?_
      intro first middle now
      refine ensures_bind (ih first.2 middle) fun others after later => ?_
      apply ensures_pure
      exact ⟨now.1.trans later.1, later.2.trans now.2⟩

/-- The room that one attribute needs: no namespace of theirs has more than three segments. -/
def attributeRoom : Nat := 5

theorem stops_find (catalogue : AttributeCatalogue) (attr : RequiredAttribute)
    (before : Interner) :
    StopsWhenFull id before attributeRoom (catalogue.find resolver store attr.fullName) := by
  have space : (Dotted.segments (Dotted.splitLast attr.fullName).1).length ≤ 3 := by
    cases attr <;> decide +kernel
  apply (catalogue.stops_find resolver store attr.fullName before).weaken
  rw [attributeRoom, Interner.typeNameRoom]
  omega

theorem stops_find? (attr : OptionalAttribute) (before : Interner) :
    StopsWhenFull id before attributeRoom
      (AttributeCatalogue.find? resolver store attr.fullName) := by
  have space : (Dotted.segments (Dotted.splitLast attr.fullName).1).length ≤ 3 := by
    cases attr <;> decide +kernel
  apply (AttributeCatalogue.stops_find? resolver store attr.fullName before).weaken
  rw [attributeRoom, Interner.typeNameRoom]
  omega

theorem stops_findAll (attributes : List RequiredAttribute) (catalogue : AttributeCatalogue)
    (before : Interner) :
    StopsWhenFull id before (attributes.length * attributeRoom)
      (findAll resolver store catalogue attributes) := by
  induction attributes generalizing catalogue before with
  | nil => exact stopsWhenFull_pure _
  | cons attr rest ih =>
      have whole : StopsWhenFull id before (attributeRoom + rest.length * attributeRoom)
          (findAll resolver store catalogue (attr :: rest)) := by
        refine stopsWhenFull_bind (stops_find resolver store catalogue attr before) ?_
        intro found middle _
        exact (ih found.2 middle).bind_pure _
      rw [Nat.add_comm, ← Nat.succ_mul] at whole
      exact whole

theorem stops_optional (before : Interner) :
    StopsWhenFull id before ((Enumerated.all : List OptionalAttribute).length * attributeRoom)
      (Table.ofFnM fun attr : OptionalAttribute =>
        AttributeCatalogue.find? resolver store attr.fullName) :=
  stopsWhenFull_ofFnM (stops_find? resolver store) before

def locateRoom : Nat :=
  RequiredAttribute.all.length * attributeRoom +
    ((Enumerated.all : List OptionalAttribute).length * attributeRoom + 0)

theorem stops_locate (before : Interner) :
    StopsWhenFull id before locateRoom (locate resolver store) := by
  refine stopsWhenFull_bind (stops_findAll resolver store RequiredAttribute.all {} before) ?_
  intro _ withRequired _
  exact (stops_optional resolver store withRequired).bind_pure _

theorem ensures_locate (before : Interner) :
    Ensures before (locate resolver store) fun found after =>
      before.Extends after ∧ found.2.embedded = [] := by
  refine ensures_bind (ensures_findAll resolver store RequiredAttribute.all {} before) ?_
  intro required middle found
  refine ensures_bind (stops_optional resolver store middle).ensures ?_
  intro optional after grown
  apply ensures_pure
  exact ⟨found.1.trans grown, found.2⟩

end WellKnownAttributes

end TypeEnv
