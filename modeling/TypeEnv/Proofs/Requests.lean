import TypeEnv.Proofs.Creation
import TypeEnv.Session.Request

/-!
What one request does to a session, said once for all requests. Whatever a request or a run of
requests keeps is read off this.
-/

namespace TypeEnv

namespace CanonQuery

def usesDecompile : CanonQuery → Bool
  | .decompileTycon .. => true
  | .decompileTy ty => ty.anyNode Ty.isApp
  | .improveTycon .. => false
  | .improveTy _ => false

def usesImprove : CanonQuery → Bool
  | .decompileTycon .. => false
  | .decompileTy _ => false
  | .improveTycon _ args _ => args.isEmpty
  | .improveTy ty => ty.anyNode Ty.isNullaryApp

end CanonQuery

def Request.query? : Request → Option CanonQuery
  | .canonicalize query => some query
  | _ => none

namespace Session

variable {α β : Type} {session next : Session}

/-- The rules of decompiling that the session has, or would fix now. -/
def decompileRulesNow (session : Session) : DecompileRules :=
  session.decompileRules.getD
    (DecompileRules.build session.tycons (session.config.supports .structTuples) session.units)

def improveRulesNow (session : Session) : ImproveRules :=
  session.improveRules.getD
    (ImproveRules.build session.improveStrategy session.tycons session.units)

def withDecompileRules (session : Session) : Session :=
  { session with decompileRules := some session.decompileRulesNow }

def withImproveRules (session : Session) : Session :=
  { session with improveRules := some session.improveRulesNow }

def tookNode (session : Session) : Session :=
  { session with nextNode := session.nextNode + 1 }

section Queries

variable {tycon : TyconRef} {args : List Ty} {nullness : Nullness} {ty : Ty}

theorem map_ok {action : SessionM α} {value : α} (change : α → β)
    (outcome : action session = .ok value next) :
    (change <$> action) session = .ok (change value) next := by
  simp only [Functor.map, EStateM.map, outcome]

theorem fixDecompileRules_eq (session : Session) :
    fixDecompileRules session = .ok session.decompileRulesNow session.withDecompileRules := by
  rcases session with ⟨_, _, _, _, _, _, _, _, _, _, _, _, _ | rules, _, _⟩ <;> rfl

theorem fixImproveRules_eq (session : Session) :
    fixImproveRules session = .ok session.improveRulesNow session.withImproveRules := by
  rcases session with ⟨_, _, _, _, _, _, _, _, _, _, _, _, _, _ | rules, _⟩ <;> rfl

theorem decompileTycon_eq (session : Session) (tycon : TyconRef) (args : List Ty)
    (nullness : Nullness) :
    decompileTycon tycon args nullness session =
      .ok (session.decompileRulesNow.decompileApp? session.tycons.tuples session.units
        session.nextNode tycon args nullness) session.withDecompileRules.tookNode := by
  simp only [decompileTycon, bind, EStateM.bind, fixDecompileRules_eq]
  rfl

theorem decompileTy_eq (session : Session) (applies : ty.anyNode Ty.isApp) :
    decompileTy ty session =
      .ok (session.decompileRulesNow.decompile session.tycons.tuples session.units
        session.nextNode ty) session.withDecompileRules.tookNode := by
  simp only [decompileTy, applies, if_true, bind, EStateM.bind, fixDecompileRules_eq]
  rfl

theorem decompileTy_of_not_applies (session : Session) (bare : ¬ ty.anyNode Ty.isApp) :
    decompileTy ty session = .ok ty session := by
  rw [decompileTy, if_neg bare]
  rfl

theorem improveTycon_nil (session : Session) (tycon : TyconRef) (nullness : Nullness) :
    improveTycon tycon [] nullness session =
      .ok (session.improveRulesNow.improveApp? session.prims session.units session.nextNode tycon
        [] nullness) session.withImproveRules.tookNode := by
  simp only [improveTycon, List.isEmpty_nil, if_true, bind, EStateM.bind, fixImproveRules_eq]
  rfl

theorem improveTycon_of_args (session : Session) (some : args ≠ []) :
    improveTycon tycon args nullness session = .ok none session := by
  rw [improveTycon, if_neg (by simpa using some)]
  rfl

theorem improveTy_eq (session : Session) (applies : ty.anyNode Ty.isNullaryApp) :
    improveTy ty session =
      .ok (session.improveRulesNow.improve session.prims session.units session.nextNode ty)
        session.withImproveRules.tookNode := by
  simp only [improveTy, applies, if_true, bind, EStateM.bind, fixImproveRules_eq]
  rfl

theorem improveTy_of_not_applies (session : Session) (bare : ¬ ty.anyNode Ty.isNullaryApp) :
    improveTy ty session = .ok ty session := by
  rw [improveTy, if_neg bare]
  rfl

def answered (session : Session) (query : CanonQuery) : Session :=
  if query.usesDecompile then session.withDecompileRules.tookNode
  else if query.usesImprove then session.withImproveRules.tookNode
  else session

theorem exists_answered (session : Session) (query : CanonQuery) :
    ∃ decompileRules improveRules nextNode,
      session.answered query = { session with decompileRules, improveRules, nextNode } := by
  simp only [answered]
  split
  · exact ⟨_, _, _, rfl⟩
  · split <;> exact ⟨_, _, _, rfl⟩

theorem answer_ok (query : CanonQuery) (session : Session) :
    ∃ answer, query.answer session = .ok answer (session.answered query) := by
  cases query with
  | decompileTycon tycon args nullness => exact ⟨_, decompileTycon_eq session tycon args nullness⟩
  | decompileTy ty =>
      by_cases applies : ty.anyNode Ty.isApp
      · have served := map_ok some (decompileTy_eq session applies)
        exact ⟨_, by rwa [answered, CanonQuery.usesDecompile, if_pos applies]⟩
      · have served := map_ok some (decompileTy_of_not_applies session applies)
        exact ⟨_, by rwa [answered, CanonQuery.usesDecompile, if_neg applies,
          CanonQuery.usesImprove, if_neg Bool.false_ne_true]⟩
  | improveTycon tycon args nullness =>
      cases args with
      | nil => exact ⟨_, improveTycon_nil session tycon nullness⟩
      | cons arg rest => exact ⟨_, improveTycon_of_args session (List.cons_ne_nil arg rest)⟩
  | improveTy ty =>
      by_cases applies : ty.anyNode Ty.isNullaryApp
      · have served := map_ok some (improveTy_eq session applies)
        exact ⟨_, by rwa [answered, CanonQuery.usesDecompile, if_neg Bool.false_ne_true,
          CanonQuery.usesImprove, if_pos applies]⟩
      · have served := map_ok some (improveTy_of_not_applies session applies)
        exact ⟨_, by rwa [answered, CanonQuery.usesDecompile, if_neg Bool.false_ne_true,
          CanonQuery.usesImprove, if_neg applies]⟩

end Queries

theorem after_bind (action : SessionM α) (following : α → SessionM β) (session : Session) :
    session.after (action >>= following) =
      match action session with
      | .ok value next => next.after (following value)
      | .error _ next => next := by
  simp only [after, bind, EStateM.bind]
  cases action session <;> rfl

/-- What is done with the outcome of a computation does not change the session. -/
theorem after_discard (action : SessionM α) (session : Session) :
    session.after (do let _ ← action) = session.after action := by
  simp only [after, bind, EStateM.bind]
  cases action session <;> rfl

theorem after_interns (action : Interning α) (following : α → SessionM β) (session : Session) :
    session.after (interns action >>= following) =
      match action session.interner with
      | .ok value interner => { session with interner }.after (following value)
      | .error _ interner => { session with interner } := by
  rw [after_bind]
  simp only [interns, reportFull, EStateM.adaptExcept]
  cases action session.interner <;> rfl

theorem after_canonicalize (session : Session) (query : CanonQuery) :
    session.after (Request.canonicalize query).perform = session.answered query := by
  rcases answer_ok query session with ⟨answer, served⟩
  rw [Request.perform, after_bind, served]
  rfl

/-- The computation interns strings and takes node numbers, and leaves the rest as it is. -/
def Grows (action : SessionM α) : Prop :=
  ∀ session : Session, ∃ interner nextNode, session.interner.Extends interner ∧
    session.after action = { session with interner, nextNode }

section Grows

variable {action : SessionM α} {following : α → SessionM β}

theorem grows_of_after (same : ∀ session : Session, session.after action = session) : Grows action :=
  fun session => ⟨session.interner, session.nextNode, .refl _, same session⟩

theorem grows_get : Grows (get : SessionM Session) := grows_of_after fun _ => rfl

theorem grows_orBreach (result : Except Breach α) : Grows (orBreach result : SessionM α) := by
  apply grows_of_after
  intro session
  cases result <;> rfl

theorem grows_bind (first : Grows action) (rest : ∀ value, Grows (following value)) :
    Grows (action >>= following) := by
  intro session
  obtain ⟨interner, nextNode, extended, start⟩ := first session
  rw [after_bind]
  rw [after] at start
  cases outcome : action session with
  | error failure next =>
      rw [outcome] at start
      exact ⟨interner, nextNode, extended, start⟩
  | ok value next =>
      rw [outcome] at start
      simp only at start
      subst start
      obtain ⟨later, last, further, finish⟩ := rest value { session with interner, nextNode }
      exact ⟨later, last, extended.trans further, finish⟩

theorem grows_discard (grows : Grows action) : Grows (do let _ ← action) := by
  intro session
  rw [after_discard]
  exact grows session

theorem grows_interns {action : Interning α} {count : Nat}
    (stops : ∀ before, StopsWhenFull id before count action) : Grows (interns action) := by
  intro session
  have added := stops_reportFull (stops session.interner)
  simp only [after, Session.interns]
  cases outcome : reportFull action session.interner with
  | ok value interner =>
      exact ⟨interner, session.nextNode, added.extends_of_ok outcome, rfl⟩
  | error failure interner =>
      exact ⟨interner, session.nextNode, (added.of_error outcome).1, rfl⟩

theorem grows_freshNode : Grows freshNode := fun session =>
  ⟨session.interner, session.nextNode + 1, .refl _, rfl⟩

theorem grows_instantiate (spec : IntrinsicSpec) : Grows (instantiate spec) := by
  refine grows_bind (grows_interns (stops_internNames spec)) fun names => ?_
  refine grows_bind grows_freshNode fun node => ?_
  exact grows_bind grows_get fun session => grows_orBreach _

theorem grows_makeType (make : Session → NodeId → Except Breach Ty) :
    Grows (Request.makeType make).perform := by
  refine grows_bind grows_freshNode fun node => ?_
  refine grows_bind grows_get fun session => ?_
  exact grows_discard (grows_orBreach _)

theorem grows_findHostTycon (space name : String) : Grows (findHostTycon space name) := by
  refine grows_bind grows_get fun session => ?_
  exact grows_interns fun state => session.scope.stops_host state space name

theorem grows_findCoreTycon (space name : String) : Grows (findCoreTycon space name) := by
  refine grows_bind grows_get fun session => ?_
  exact grows_interns fun state => session.scope.stops_core state space name

theorem grows_tryFindAttribute (full : String) : Grows (findAttribute? full) := by
  refine grows_bind grows_get fun session => ?_
  exact grows_interns fun state =>
    AttributeCatalogue.stops_find? session.resolver session.units full state

end Grows

/-- What registering comes to, by what building comes to: a known intrinsic needs a free key. -/
theorem register_eq (spec : IntrinsicSpec) (session : Session) :
    register spec session =
      match instantiate spec session with
      | .error failure next => .error failure next
      | .ok value next =>
        if value.known then
          match next.known.insert value with
          | .ok known => .ok value { next with known }
          | .error breach => .error (.breach breach) next
        else .ok value next := by
  simp only [register, bind, EStateM.bind]
  cases instantiate spec session with
  | error failure next => rfl
  | ok value next =>
      by_cases known : value.known
      · have read : (get : SessionM Session) next = .ok next next := rfl
        simp only [known, if_true, EStateM.bind, read]
        cases next.known.insert value <;> rfl
      · simp only [known]
        rfl

theorem after_findAttribute (full : String) (session : Session) :
    session.after (findAttribute full) =
      match session.attributes.find session.resolver session.units full session.interner with
      | .ok found interner => { session with interner, attributes := found.2 }
      | .error _ interner => { session with interner } := by
  let action := session.attributes.find session.resolver session.units full
  change session.after (interns action >>= fun found => _) = _
  rw [after_interns]
  simp only [action]
  cases session.attributes.find session.resolver session.units full session.interner <;> rfl

def embedding (session : Session) (full : String) :
    Interning (Except SessionError AttributeCatalogue.Embedding) :=
  session.attributes.findOrEmbed session.resolver session.units
    (if session.config.supports .embeddedAttributes then some session.localUnit else none) full

theorem after_findOrEmbedAttribute (full : String) (session : Session) :
    session.after (findOrEmbedAttribute full) =
      match session.embedding full session.interner with
      | .ok (.ok embedding) interner =>
        { session with interner, attributes := embedding.catalogue, units := embedding.units }
      | .ok (.error _) interner => { session with interner }
      | .error _ interner => { session with interner } := by
  change session.after (interns (session.embedding full) >>= fun outcome => _) = _
  rw [after_interns]
  cases session.embedding full session.interner with
  | error failure interner => rfl
  | ok outcome interner => cases outcome <;> rfl

/-- What a request does to the session. Only queries of canonicalization fix rules, and only a request
that may embed an attribute lists one as embedded. -/
inductive Alters (session : Session) : Request → Session → Prop where
  | grown {request : Request} (interner : Interner) (nextNode : NodeId)
    (plain : request.query? = none) (extended : session.interner.Extends interner) :
    Alters session request { session with interner, nextNode }
  | answered (query : CanonQuery) :
    Alters session (.canonicalize query) (session.answered query)
  | unitAdded (name : Name) (kind : UnitKind) :
    Alters session (.addUnit name kind)
      { session with units := (session.units.addUnit name kind).2 }
  | defined (unit : UnitId) (spec : TypeSpec) :
    Alters session (.define unit spec)
      { session with units := (session.units.define unit spec).2 }
  | registered {spec : IntrinsicSpec} (interner : Interner) (nextNode : NodeId) (known : KnownTable)
    (extended : session.interner.Extends interner) :
    Alters session (.register spec) { session with interner, nextNode, known }
  | found {full : String} (interner : Interner) (attributes : AttributeCatalogue)
    (extended : session.interner.Extends interner)
    (kept : attributes.embedded = session.attributes.embedded) :
    Alters session (.findAttribute full) { session with interner, attributes }
  | embedded {full : String} (interner : Interner) (embedding : AttributeCatalogue.Embedding)
    (extended : session.interner.Extends interner)
    (embeds : session.attributes.Embeds session.units
      (if session.config.supports .embeddedAttributes then some session.localUnit else none) full
      interner embedding) :
    Alters session (.findOrEmbedAttribute full)
      { session with interner, attributes := embedding.catalogue, units := embedding.units }

theorem alters_of_grows {request : Request} (plain : request.query? = none)
    (grows : Grows request.perform) (session : Session) :
    Alters session request (session.after request.perform) := by
  obtain ⟨interner, nextNode, extended, same⟩ := grows session
  rw [same]
  exact .grown interner nextNode plain extended

theorem alters_register (spec : IntrinsicSpec) (session : Session) :
    Alters session (.register spec) (session.after (register spec)) := by
  obtain ⟨interner, nextNode, extended, built⟩ := grows_instantiate spec session
  have same : Alters session (.register spec) { session with interner, nextNode } :=
    .registered interner nextNode session.known extended
  rw [after] at built ⊢
  rw [register_eq]
  cases outcome : instantiate spec session with
  | error failure next =>
      rw [outcome] at built
      rw [built]
      exact same
  | ok value next =>
      rw [outcome] at built
      simp only at built
      subst built
      by_cases known : value.known
      · simp only [known, if_true]
        cases session.known.insert value with
        | error breach => exact same
        | ok known => exact .registered interner nextNode known extended
      · simp only [known]
        exact same

theorem alters_findAttribute (full : String) (session : Session) :
    Alters session (.findAttribute full) (session.after (findAttribute full)) := by
  have stops := session.attributes.stops_find session.resolver session.units full session.interner
  rw [after_findAttribute]
  cases result : session.attributes.find session.resolver session.units full session.interner with
  | error failure interner =>
      exact .found interner session.attributes (stops.of_error result).1 rfl
  | ok found interner =>
      have kept := session.attributes.ensures_find session.resolver session.units full
        session.interner found interner result
      exact .found interner found.2 kept.1 kept.2

theorem stops_embedding (session : Session) (full : String) (before : Interner) :
    StopsWhenFull id before (1 + (Interner.typeNameRoom full + Interner.typeNameRoom full))
      (session.embedding full) :=
  session.attributes.stops_findOrEmbed session.resolver session.units _ full before

theorem alters_findOrEmbedAttribute (full : String) (session : Session) :
    Alters session (.findOrEmbedAttribute full) (session.after (findOrEmbedAttribute full)) := by
  have stops := session.stops_embedding full session.interner
  rw [after_findOrEmbedAttribute]
  cases result : session.embedding full session.interner with
  | error failure interner =>
      exact .grown interner session.nextNode rfl (stops.of_error result).1
  | ok outcome interner =>
      have extended := stops.extends_of_ok result
      have embeds := AttributeCatalogue.ensures_findOrEmbed _ _ _ _ _ _ outcome interner result
      cases outcome with
      | error error => exact .grown interner session.nextNode rfl extended
      | ok embedding => exact .embedded interner embedding extended (embeds embedding rfl)

theorem alters_after (request : Request) (session : Session) :
    Alters session request (session.after request.perform) := by
  cases request with
  | intern text =>
      apply alters_of_grows rfl
      exact grows_discard (grows_interns fun state => state.stops_intern text)
  | findHostTycon space name =>
      apply alters_of_grows rfl
      exact grows_discard (grows_findHostTycon space name)
  | findCoreTycon space name =>
      apply alters_of_grows rfl
      exact grows_discard (grows_findCoreTycon space name)
  | addUnit name kind => exact .unitAdded name kind
  | define unit spec => exact .defined unit spec
  | canonicalize query =>
      rw [after_canonicalize]
      exact .answered query
  | makeType make => exact alters_of_grows rfl (grows_makeType make) session
  | instantiate spec =>
      apply alters_of_grows rfl
      exact grows_discard (grows_instantiate spec)
  | register spec =>
      rw [Request.perform, after_discard]
      exact alters_register spec session
  | findAttribute full =>
      rw [Request.perform, after_discard]
      exact alters_findAttribute full session
  | tryFindAttribute full =>
      apply alters_of_grows rfl
      exact grows_discard (grows_tryFindAttribute full)
  | findOrEmbedAttribute full =>
      rw [Request.perform, after_discard]
      exact alters_findOrEmbedAttribute full session

end Session

end TypeEnv
