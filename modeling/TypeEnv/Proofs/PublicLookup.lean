import TypeEnv.Proofs.AttributeRuns
import TypeEnv.Proofs.EmbeddedTypes
import TypeEnv.Proofs.LocatedAttributes

/-!
Embedding an attribute, as public look-up sees it. The definition that is made is internal, and
takes the place of no other, so every public answer stays what it was, also where the unit under
compilation is one of those that are looked into.
-/

namespace TypeEnv

/-- No marker attribute is defined publicly, so its definition changes no public answer. -/
theorem UnitStore.defines_define_embedded (store : UnitStore) (host other : UnitId)
    (path otherPath : NamespacePath) (name otherName : Name) :
    (store.define host (embeddedSpec path name)).2.defines other otherPath otherName true =
      store.defines other otherPath otherName true := by
  cases free : store.lookup host path name with
  | some earlier =>
      have found : store.lookup host (embeddedSpec path name).path (embeddedSpec path name).name =
          some earlier := free
      rw [define_of_lookup found]
  | none =>
      rw [defines, defines, lookup_define free]
      split
      case isFalse => rfl
      case isTrue same =>
        rw [Prod.mk.injEq, Prod.mk.injEq] at same
        rcases same with ⟨rfl, rfl, rfl⟩
        rw [free, Option.any_some, TypeDef.isPublic, (define_synthesized free).access]
        rfl

/-- What two runs describe one attribute by, where they interned other strings before: the same, or
missing in both. -/
inductive AttributeInfo.Alike (full : String) (first second : Interner) :
    AttributeInfo → AttributeInfo → Prop where
  | same (info : AttributeInfo) : Alike full first second info info
  | missing {path otherPath : NamespacePath} {name otherName : Name}
    (spelled : first.Spells full path name) (again : second.Spells full otherPath otherName)
    (texts : notFoundText path name first = notFoundText otherPath otherName second) :
    Alike full first second (.inUnit (.missing path name first) path name)
      (.inUnit (.missing otherPath otherName second) otherPath otherName)

def Request.Named (interner : Interner) : Request → Prop
  | .define _ spec => interner.Knows spec.path spec.name
  | _ => True

namespace Session

variable {session before next start : Session} {requests : List Request} {full other : String}
  {listed : List CompilationUnit} {path : NamespacePath} {name : Name} {names : AttributeNames}

/-- Every definition stands under names that were handed out. -/
def Named (session : Session) : Prop :=
  ∀ definition ∈ session.units.definitions,
    session.interner.Knows definition.path definition.name

def NamedAlong (session : Session) : List Request → Prop
  | [] => True
  | request :: rest =>
    request.Named session.interner ∧ NamedAlong (session.after request.perform) rest

theorem Serves.named {request : Request} (serves : Serves session request next)
    (wellFormed : session.interner.WellFormed) (placed : session.units.WellFormed)
    (legible : session.Named) (known : request.Named session.interner) : next.Named := by
  have grown := serves.retains.interner
  -- names that were handed out stay so
  have kept {definition : TypeDef} (had : definition ∈ session.units.definitions) :
      next.interner.Knows definition.path definition.name :=
    (legible definition had).mono grown.toGrows
  -- a definition that is given back stands where it was asked for
  have added {unit : UnitId} {spec : TypeSpec} (knows : next.interner.Knows spec.path spec.name)
      {definition : TypeDef} (there : definition ∈ (session.units.define unit spec).2.definitions) :
      next.interner.Knows definition.path definition.name := by
    rcases (session.units.mem_definitions_define_iff unit spec).mp there with had | rfl
    · exact kept had
    · have place := UnitStore.define_place placed unit spec
      rw [TypeDef.place, Prod.mk.injEq, Prod.mk.injEq] at place
      rw [place.2.1, place.2.2]
      exact knows
  cases serves with
  | aside same =>
      intro definition there
      rw [same.units] at there
      exact kept there
  | unitAdded name kind => exact fun _ there => kept there
  | defined unit spec => exact fun _ there => added known there
  | found interned new => exact fun _ there => kept there
  | @embedded full names interner interned new unprovided embeddable =>
      have named := (Interner.named_of_internAttribute interned).2
      have knows : interner.Knows (embeddedSpec names.path names.name).path
          (embeddedSpec names.path names.name).name :=
        named.toSpells.knows (grown.wellFormed wellFormed)
      exact fun _ there => added knows there

theorem NamedAlong.named {more : List Request} (along : session.NamedAlong more)
    (catalogued : session.Catalogued requests) (legible : session.Named) :
    (session.served more).Named := by
  induction more generalizing session requests with
  | nil => exact legible
  | cons request rest ih =>
      have step := Session.serves catalogued request
      exact ih along.2 (step.catalogued catalogued)
        (step.named catalogued.interner catalogued.units legible along.1)

section Embedding

variable (serves : Serves session (.findOrEmbedAttribute full) next)

include serves

theorem Serves.found_eq : next.attributes.found = session.attributes.found := by
  cases serves with
  | aside kept => rw [kept.attributes]
  | embedded interned new unprovided embeddable => rfl

theorem Serves.resolve_public (table : session.resolver = .table listed) (path : NamespacePath)
    (name : Name) :
    next.resolver.resolve next.units path name true =
      session.resolver.resolve session.units path name true := by
  cases serves with
  | aside kept => rw [kept.resolver, kept.units]
  | @embedded full names interner interned new unprovided embeddable =>
      show session.resolver.resolve (session.embeddedType names).2 path name true = _
      rw [table]
      apply Resolver.table_congr
      intro unit _
      exact session.units.defines_define_embedded session.localUnit.id unit.id ..

theorem Serves.resolveOrDefer_public (table : session.resolver = .table listed)
    (interner : Interner) (path : NamespacePath) (name : Name) :
    next.resolver.resolveOrDefer next.units interner path name true =
      session.resolver.resolveOrDefer session.units interner path name true := by
  rw [Resolver.resolveOrDefer, Resolver.resolveOrDefer, serves.resolve_public table]

end Embedding

section Twice

variable (catalogued : session.Catalogued requests) (table : session.resolver = .table listed)

include catalogued table

theorem outcome_tryFindAttribute_again (full other : String) :
    ((session.after (findAttribute? other)).after (findOrEmbedAttribute full)).outcome
      (findAttribute? other) = session.outcome (findAttribute? other) := by
  have run := findAttribute?_eq other session
  have first := Session.serves catalogued (.tryFindAttribute other)
  rw [Request.perform, after_discard] at first
  have second := serves_findOrEmbedAttribute (first.catalogued catalogued) full
  rcases Interner.settles_internTypeName catalogued.interner other with
    ⟨answer, interner, interned, _, again⟩
  cases answer with
  | error shard =>
      rw [ended] at interned
      simp only [interned] at run
      have left : session.after (findAttribute? other) = { session with interner } := by
        rw [after, run]
      rw [left] at second ⊢
      have later := again _ second.retains.interner
      rw [ended] at later
      simp only [outcome, run, findAttribute?_eq other, later]
  | ok place =>
      rw [ended] at interned
      simp only [interned] at run
      have left : session.after (findAttribute? other) = { session with interner } := by
        rw [after, run]
      rw [left] at second ⊢
      have later := again _ second.retains.interner
      rw [ended] at later
      simp only [outcome, run, findAttribute?_eq other, later,
        second.resolve_public table]

end Twice

section Known

variable (catalogued : session.Catalogued requests) (table : session.resolver = .table listed)
  (named : session.interner.Names other names)

include catalogued table named

theorem outcomes_of_names (full : String) :
    (session.after (findOrEmbedAttribute full)).outcome (findAttribute? other) =
        session.outcome (findAttribute? other) ∧
      (session.after (findOrEmbedAttribute full)).outcome (findAttribute other) =
        session.outcome (findAttribute other) := by
  have serves := serves_findOrEmbedAttribute catalogued full
  have grown := serves.retains.interner
  have later := named.mono grown
  constructor
  · rw [outcome_of_spells named.toSpells, outcome_of_spells later.toSpells,
      serves.resolve_public table]
  · have knows := named.toSpells.knows catalogued.interner
    have described : (session.after (findOrEmbedAttribute full)).describe names =
        session.describe names := by
      rw [describe, describe, resolveOrDefer, serves.resolveOrDefer_public table,
        session.resolver.resolveOrDefer_mono session.units knows grown.toGrows]
      rfl
    simp only [outcome, findAttribute_eq catalogued,
      findAttribute_eq (serves.catalogued catalogued), named.internAttribute_eq,
      later.internAttribute_eq, serves.found_eq, described]
    cases session.attributes.found.lookup names.key <;> rfl

end Known

section Timelines

variable (catalogued : session.Catalogued requests) (table : session.resolver = .table listed)
  (legible : session.Named) {first second : Interner} {otherPath : NamespacePath} {otherName : Name}
  (toFirst : session.interner.Extends first) (toSecond : session.interner.Extends second)
  (spelled : first.Spells other path name) (again : second.Spells other otherPath otherName)

include catalogued table legible

/-- What has no names yet is not defined. -/
theorem resolve_of_unspelled {later : Interner} (grown : session.interner.Extends later)
    (spelled : later.Spells other path name)
    (unspelled : ¬ ∃ path name, session.interner.Spells other path name) :
    session.resolver.resolve session.units path name true = none := by
  rw [table]
  apply List.find?_eq_none.mpr
  intro unit _ defined
  rw [UnitStore.defines, Option.any_eq_true] at defined
  rcases defined with ⟨definition, found, _⟩
  have place := catalogued.units.placed found
  rw [TypeDef.place, Prod.mk.injEq, Prod.mk.injEq] at place
  have knows := legible definition (UnitStore.mem_of_lookup found)
  rw [place.2.1, place.2.2] at knows
  exact unspelled ⟨path, name, spelled.of_knows catalogued.interner grown knows⟩

include toFirst toSecond spelled again

theorem spelled_alike :
    (path = otherPath ∧ name = otherName ∧ session.interner.Knows path name) ∨
      session.resolver.resolve session.units path name true = none ∧
        session.resolver.resolve session.units otherPath otherName true = none := by
  by_cases known : ∃ path name, session.interner.Spells other path name
  · rcases known with ⟨path, name, had⟩
    rcases (had.mono toFirst.toGrows).unique spelled with ⟨rfl, rfl⟩
    rcases (had.mono toSecond.toGrows).unique again with ⟨rfl, rfl⟩
    exact Or.inl ⟨rfl, rfl, had.knows catalogued.interner⟩
  · exact Or.inr ⟨resolve_of_unspelled catalogued table legible toFirst spelled known,
      resolve_of_unspelled catalogued table legible toSecond again known⟩

theorem described_alike :
    AttributeInfo.Alike other first second
      (.inUnit (session.resolver.resolveOrDefer session.units first path name true) path name)
      (.inUnit (session.resolver.resolveOrDefer session.units second otherPath otherName true)
        otherPath otherName) := by
  rcases spelled_alike catalogued table legible toFirst toSecond spelled again with
    ⟨rfl, rfl, knows⟩ | ⟨missing, missingToo⟩
  · rw [session.resolver.resolveOrDefer_mono session.units knows toFirst.toGrows,
      session.resolver.resolveOrDefer_mono session.units knows toSecond.toGrows]
    exact .same _
  · rw [Resolver.resolveOrDefer, Resolver.resolveOrDefer, missing, missingToo]
    have texts := spelled.qualify_eq (toFirst.wellFormed catalogued.interner) again
      (toSecond.wellFormed catalogued.interner)
    exact .missing spelled again (congrArg (· ++ " not found") texts)

end Timelines

section Unseen

variable (catalogued : session.Catalogued requests) (table : session.resolver = .table listed)
  (legible : session.Named) (full other : String)

include catalogued table legible

theorem tried_alike :
    let next := session.after (findOrEmbedAttribute full)
    session.OutOfRoom (findAttribute? other) ∨ next.OutOfRoom (findAttribute? other) ∨
      ∃ found, session.outcome (findAttribute? other) = .ok found ∧
        next.outcome (findAttribute? other) = .ok found := by
  intro next
  have serves : Serves session (.findOrEmbedAttribute full) next :=
    serves_findOrEmbedAttribute catalogued full
  have later := serves.catalogued catalogued
  rcases outOfRoom_or_placed catalogued.interner other with refused | ⟨place, first, placed⟩
  · exact Or.inl refused
  rcases outOfRoom_or_placed later.interner other with refused | ⟨placeToo, second, placedToo⟩
  · exact Or.inr (Or.inl refused)
  have spelled := Interner.ensures_internTypeName session.interner other place first placed
  have again := Interner.ensures_internTypeName next.interner other placeToo second placedToo
  have grown := serves.retains.interner.trans again.1
  refine Or.inr (Or.inr ⟨_, by rw [outcome, findAttribute?_eq, placed], ?_⟩)
  rw [outcome, findAttribute?_eq, placedToo]
  simp only [serves.resolve_public table]
  rcases spelled_alike catalogued table legible spelled.1 grown spelled.2 again.2 with
    ⟨samePath, sameName, _⟩ | ⟨missing, missingToo⟩
  · rw [samePath, sameName]
  · rw [missing, missingToo]
    rfl

omit table legible in
theorem lookup_found_of_unnamed {other : String} {later : Interner}
    (grown : session.interner.Extends later) (named : later.Names other names)
    (unnamed : ¬ ∃ names, session.interner.Names other names) :
    session.attributes.found.lookup names.key = none := by
  rw [Option.eq_none_iff_forall_ne_some]
  intro info held
  exact unnamed ⟨names, (catalogued.found_of_lookup grown named held).named⟩

omit table legible in
theorem exists_outcome_of_names {other : String} (named : session.interner.Names other names) :
    ∃ info, session.outcome (findAttribute other) = .ok info := by
  simp only [outcome, findAttribute_eq catalogued, named.internAttribute_eq]
  cases session.attributes.found.lookup names.key with
  | some info => exact ⟨info, rfl⟩
  | none => exact ⟨_, rfl⟩

theorem found_alike_of_unnamed (unnamed : ¬ ∃ names, session.interner.Names other names) :
    let next := session.after (findOrEmbedAttribute full)
    session.OutOfRoom (findAttribute other) ∨ next.OutOfRoom (findAttribute other) ∨
      ∃ first second, session.outcome (findAttribute other) = .ok first ∧
        next.outcome (findAttribute other) = .ok second ∧
        AttributeInfo.Alike other (session.after (findAttribute other)).interner
          (next.after (findAttribute other)).interner first second := by
  intro next
  have serves : Serves session (.findOrEmbedAttribute full) next :=
    serves_findOrEmbedAttribute catalogued full
  have later := serves.catalogued catalogued
  rcases outOfRoom_or_named catalogued other with refused | ⟨names, first, interned⟩
  · exact Or.inl refused
  rcases outOfRoom_or_named later other with refused | ⟨namesToo, second, internedToo⟩
  · exact Or.inr (Or.inl refused)
  have named := Interner.named_of_internAttribute interned
  have again := Interner.named_of_internAttribute internedToo
  have grown := serves.retains.interner.trans again.1
  have run := findAttribute_eq catalogued other
  have rerun := findAttribute_eq later other
  have new := lookup_found_of_unnamed catalogued named.1 named.2 unnamed
  have newToo := lookup_found_of_unnamed catalogued grown again.2 unnamed
  simp only [interned, new] at run
  simp only [internedToo, serves.found_eq, newToo] at rerun
  refine Or.inr (Or.inr ⟨_, _, by rw [outcome, run], by rw [outcome, rerun], ?_⟩)
  simp only [after, run, rerun]
  have alike := described_alike catalogued table legible named.1 grown named.2.toSpells
    again.2.toSpells
  rw [← serves.resolveOrDefer_public table second] at alike
  exact alike

theorem found_alike :
    let next := session.after (findOrEmbedAttribute full)
    session.OutOfRoom (findAttribute other) ∨ next.OutOfRoom (findAttribute other) ∨
      ∃ first second, session.outcome (findAttribute other) = .ok first ∧
        next.outcome (findAttribute other) = .ok second ∧
        AttributeInfo.Alike other (session.after (findAttribute other)).interner
          (next.after (findAttribute other)).interner first second := by
  intro next
  by_cases known : ∃ names, session.interner.Names other names
  · rcases known with ⟨names, named⟩
    rcases exists_outcome_of_names catalogued named with ⟨info, found⟩
    have same := (outcomes_of_names catalogued table named full).2
    exact Or.inr (Or.inr ⟨info, info, found, same.trans found, .same info⟩)
  · exact found_alike_of_unnamed catalogued table legible full other known

end Unseen

/-- Whatever is asked and defined before, a request that may embed an attribute changes no public
answer, in a session that looks attributes up in a table of units. -/
theorem embedding_unseen (created : start.Created) (table : start.resolver = .table listed)
    (requests : List Request) (full : String) :
    let session := start.served requests
    let next := session.after (findOrEmbedAttribute full)
    -- the resolver finds what it found
    (∀ path name, next.resolver.resolve next.units path name true =
      session.resolver.resolve session.units path name true) ∧
    (∀ path name, session.interner.Knows path name →
      next.resolveOrDefer path name true = session.resolveOrDefer path name true) ∧
    -- an attribute that was tried just before it is tried again with the same outcome
    (∀ other, ((session.after (findAttribute? other)).after (findOrEmbedAttribute full)).outcome
      (findAttribute? other) = session.outcome (findAttribute? other)) ∧
    -- an attribute that has names comes to the same just before and just after
    (∀ other names, session.interner.Names other names →
      next.outcome (findAttribute? other) = session.outcome (findAttribute? other) ∧
      next.outcome (findAttribute other) = session.outcome (findAttribute other)) ∧
    -- and so does any other, apart from the names that it gets
    (start.Named → start.NamedAlong requests → ∀ other,
      (session.OutOfRoom (findAttribute? other) ∨ next.OutOfRoom (findAttribute? other) ∨
        ∃ found, session.outcome (findAttribute? other) = .ok found ∧
          next.outcome (findAttribute? other) = .ok found) ∧
      (session.OutOfRoom (findAttribute other) ∨ next.OutOfRoom (findAttribute other) ∨
        ∃ first second, session.outcome (findAttribute other) = .ok first ∧
          next.outcome (findAttribute other) = .ok second ∧
          AttributeInfo.Alike other (session.after (findAttribute other)).interner
            (next.after (findAttribute other)).interner first second)) := by
  intro session next
  have catalogued : session.Catalogued requests := created.catalogued.served requests
  have listing : session.resolver = .table listed :=
    (created.catalogued.retains requests).resolver.trans table
  have serves : Serves session (.findOrEmbedAttribute full) next :=
    serves_findOrEmbedAttribute catalogued full
  refine ⟨serves.resolve_public listing, ?_, ?_, ?_, ?_⟩
  · intro path name knows
    rw [resolveOrDefer, serves.resolveOrDefer_public listing,
      session.resolver.resolveOrDefer_mono session.units knows serves.retains.interner.toGrows]
    rfl
  · exact outcome_tryFindAttribute_again catalogued listing full
  · exact fun other names named => outcomes_of_names catalogued listing named full
  · intro legible along other
    have named : session.Named := along.named created.catalogued legible
    exact ⟨tried_alike catalogued listing named full other,
      found_alike catalogued listing named full other⟩

/-- A marker attribute that is embedded into a unit that is looked into: the unit has it then, and
no look-up finds it. -/
theorem embedding_unseen_listed :
    ∃ (start : Session) (definition : TypeDef), start.Created ∧
      start.resolver = .table [start.localUnit] ∧ start.Named ∧
      let full := "System.Runtime.CompilerServices.IsReadOnlyAttribute"
      let next := start.after (findOrEmbedAttribute full)
      definition ∈ next.units.definitions ∧ definition.unit = start.localUnit.id ∧
      start.outcome (findAttribute? full) = .ok none ∧
      next.outcome (findAttribute? full) = .ok none := by
  rcases exists_own_table with ⟨start, created, config, _, table, undefined, room⟩
  have named : start.Named := by
    intro definition there
    rw [undefined] at there
    cases there
  have nothing (path : NamespacePath) (name : Name) :
      start.resolver.resolve start.units path name true = none := by
    rw [table, Resolver.table_of_undefined undefined]
  let full := "System.Runtime.CompilerServices.IsReadOnlyAttribute"
  have embeddable : start.Embeddable full := ⟨List.mem_cons_self, by rw [config]; decide⟩
  have before : start.outcome (findAttribute? full) = .ok none := by
    have short := AttributeCatalogue.length_segments_le embeddable.1
    have fits : (Dotted.segments (Dotted.splitLast full).1).length + 1 + 0 ≤ spareRoom := by
      rw [spareRoom]
      omega
    rcases (Interner.stops_internTypeName start.interner full).exists_ok (room.weaken fits) with
      ⟨place, after, placed, _⟩
    rw [outcome, findAttribute?_eq, placed]
    simp only [nothing, Option.map_none]
  rcases created.embeds room embeddable fun names => nothing names.path names.name with
    ⟨names, interner, interned, run⟩
  have leaves : start.after (findOrEmbedAttribute full) = start.withEmbedded interner names := by
    rw [after, run]
  have spelled : (start.withEmbedded interner names).interner.Spells full names.path names.name :=
    (Interner.named_of_internAttribute interned).2.toSpells
  have place := UnitStore.define_place created.fresh.units.wellFormed start.localUnit.id
    (embeddedSpec names.path names.name)
  refine ⟨start, (start.embeddedType names).1, created, table, named, ?_, ?_, before, ?_⟩
  · rw [leaves]
    exact start.units.define_mem start.localUnit.id _
  · exact congrArg Prod.fst place
  · rcases embedding_unseen created table [] full with ⟨_, _, _, _, unseen⟩
    rcases (unseen named trivial full).1 with
      ⟨shard, refused, _⟩ | ⟨shard, refused, _⟩ | ⟨found, tried, triedAfter⟩
    · have clash := before.symm.trans refused
      cases clash
    · rw [served, List.foldl_nil, leaves, outcome_of_spells spelled] at refused
      cases refused
    · have absent : none = found := Except.ok.inj (before.symm.trans tried)
      subst absent
      exact triedAfter

end Session

end TypeEnv
