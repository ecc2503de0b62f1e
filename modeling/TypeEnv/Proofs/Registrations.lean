import Mathlib.Data.List.Dedup
import TypeEnv.Proofs.Construction
import TypeEnv.Proofs.SessionRun

namespace TypeEnv

namespace Session

variable {α β : Type} {session before next start : Session} {spec : IntrinsicSpec}
  {requests : List Request} {key : LinkageKey} {value : Intrinsic}

structure KeepsKnown (before next : Session) : Prop where
  known : next.known = before.known
  interner : before.interner.Extends next.interner

theorem KeepsKnown.trans {middle : Session} (first : KeepsKnown before middle)
    (second : KeepsKnown middle next) : KeepsKnown before next :=
  ⟨second.known.trans first.known, first.interner.trans second.interner⟩

theorem KeepsKnown.refl (session : Session) : KeepsKnown session session :=
  ⟨rfl, .refl session.interner⟩

theorem keepsKnown_of_grows {action : SessionM α} (grows : Grows action) (session : Session) :
    KeepsKnown session (session.after action) := by
  obtain ⟨interner, nextNode, extended, same⟩ := grows session
  rw [same]
  exact ⟨rfl, extended⟩

theorem Alters.keepsKnown {request : Request} (alters : Alters before request next)
    (apart : ∀ spec, request ≠ .register spec) : KeepsKnown before next := by
  refine ⟨?_, alters.extends⟩
  cases alters with
  | grown | unitAdded | defined | found | embedded => rfl
  | answered query =>
      obtain ⟨_, _, _, same⟩ := exists_answered before query
      rw [same]
  | @registered spec => exact absurd rfl (apart spec)

/-- What registering a description comes to. It fails or leaves what is known as it is, but for one
case: a known intrinsic under a free key is added. -/
inductive Registers (spec : IntrinsicSpec) (session : Session) :
    EStateM.Result Failure Session Intrinsic → Prop where
  | failed {failure : Failure} {next : Session}
    (built : instantiate spec session = .error failure next) (kept : KeepsKnown session next) :
    Registers spec session (.error failure next)
  | other {value : Intrinsic} {next : Session} (built : instantiate spec session = .ok value next)
    (unknown : value.known = false) (kept : KeepsKnown session next) :
    Registers spec session (.ok value next)
  | occupied {value holder : Intrinsic} {next : Session}
    (built : instantiate spec session = .ok value next) (known : value.known = true)
    (taken : session.known.find? value.key = some holder) (kept : KeepsKnown session next) :
    Registers spec session (.error (.breach (.duplicateKnown holder.id value.id)) next)
  | added {value : Intrinsic} {next : Session} (built : instantiate spec session = .ok value next)
    (known : value.known = true) (free : session.known.find? value.key = none)
    (kept : KeepsKnown session next) :
    Registers spec session (.ok value { next with known := ⟨session.known.entries ++ [value]⟩ })

theorem registers (spec : IntrinsicSpec) (session : Session) :
    Registers spec session (register spec session) := by
  have kept := keepsKnown_of_grows (grows_instantiate spec) session
  rw [after] at kept
  rw [register_eq]
  cases built : instantiate spec session with
  | error failure next =>
      rw [built] at kept
      exact .failed built kept
  | ok value next =>
      rw [built] at kept
      simp only
      split
      case isFalse unknown => exact .other built (Bool.not_eq_true _ ▸ unknown) kept
      case isTrue known =>
        rw [kept.known]
        cases held : session.known.find? value.key with
        | some holder =>
            simp only [KnownTable.insert, held]
            exact .occupied built known held kept
        | none =>
            rw [KnownTable.insert_of_free held]
            exact .added built known held kept

def built? (session : Session) : Request → Option Intrinsic
  | .register spec =>
    match instantiate spec session with
    | .ok value _ => some value
    | .error .. => none
  | _ => none

def registered? (session : Session) : Request → Option Intrinsic
  | .register spec =>
    match register spec session with
    | .ok value _ => some value
    | .error .. => none
  | _ => none

/-- The known ones among the intrinsics that the requests give rise to, oldest first. -/
def knownAlong (each : Session → Request → Option Intrinsic) (session : Session) :
    List Request → List Intrinsic
  | [] => []
  | request :: rest =>
    (each session request).toList.filter (·.known) ++
      knownAlong each (session.after request.perform) rest

def knownRows (session : Session) : List Intrinsic :=
  session.intrinsics.entries.filter (·.known)

structure Registry (session : Session) : Prop where
  interner : session.interner.WellFormed
  distinct : (session.known.entries.map Intrinsic.key).Nodup

theorem Built.registry (built : session.Built) : session.Registry :=
  ⟨built.interner, built.known_nodup⟩

theorem Registry.kept (registry : before.Registry) (kept : KeepsKnown before next) :
    next.Registry := by
  refine ⟨kept.interner.wellFormed registry.interner, ?_⟩
  rw [kept.known]
  exact registry.distinct

/-- From one session to a later one, known intrinsics are added, and a key leads to the first
intrinsic built under it. -/
structure Advances (before : Session) (built added : List Intrinsic) (next : Session) :
    Prop where
  interner : before.interner.Extends next.interner
  registry : before.Registry → next.Registry
  entries : next.known.entries = before.known.entries ++ added
  first : ∀ key, next.known.find? key =
    (before.known.find? key).or (built.find? fun value => value.key = key)

theorem Advances.trans {middle : Session} {built added builtLater addedLater : List Intrinsic}
    (earlier : Advances before built added middle)
    (later : Advances middle builtLater addedLater next) :
    Advances before (built ++ builtLater) (added ++ addedLater) next where
  interner := earlier.interner.trans later.interner
  registry := later.registry ∘ earlier.registry
  entries := by rw [later.entries, earlier.entries, List.append_assoc]
  first key := by rw [later.first, earlier.first, List.find?_append, Option.or_assoc]

theorem KeepsKnown.advances (kept : KeepsKnown before next) : Advances before [] [] next where
  interner := kept.interner
  registry registry := registry.kept kept
  entries := by rw [kept.known, List.append_nil]
  first key := by rw [kept.known, List.find?_nil, Option.or_none]

theorem KeepsKnown.advances_occupied {holder : Intrinsic} (kept : KeepsKnown before next)
    (taken : before.known.find? value.key = some holder) :
    Advances before [value] [] next where
  interner := kept.interner
  registry registry := registry.kept kept
  entries := by rw [kept.known, List.append_nil]
  first key := by
    rw [kept.known]
    by_cases same : value.key = key
    · rw [← same, taken, Option.some_or]
    · have apart : ([value].find? fun value => value.key = key) = none := by simp [same]
      rw [apart, Option.or_none]

theorem KeepsKnown.advances_added (kept : KeepsKnown before next)
    (free : before.known.find? value.key = none) :
    Advances before [value] [value]
      { next with known := ⟨before.known.entries ++ [value]⟩ } where
  interner := kept.interner
  registry registry := by
    refine ⟨kept.interner.wellFormed registry.interner, ?_⟩
    rw [List.map_append, List.map_singleton, ← List.concat_eq_append]
    exact registry.distinct.concat (KnownTable.find?_eq_none_iff.mp free)
  entries := rfl
  first key := List.find?_append

theorem advances_after (request : Request) (session : Session) :
    Advances session ((session.built? request).toList.filter (·.known))
      ((session.registered? request).toList.filter (·.known))
      (session.after request.perform) := by
  by_cases asks : ∃ spec, request = .register spec
  · rcases asks with ⟨spec, rfl⟩
    rw [Request.perform, after_discard]
    have outcome := registers spec session
    simp only [after, registered?]
    generalize register spec session = result at outcome ⊢
    cases outcome with
    | failed built kept =>
        simp only [built?, built]
        exact kept.advances
    | other built unknown kept =>
        simp only [built?, built, Option.toList_some, List.filter_cons, unknown]
        exact kept.advances
    | occupied built known taken kept =>
        simp only [built?, built, Option.toList_some, List.filter_cons, known]
        exact kept.advances_occupied taken
    | added built known free kept =>
        simp only [built?, built, Option.toList_some, List.filter_cons, known]
        exact kept.advances_added free
  · have apart := not_exists.mp asks
    have kept := (alters_after request session).keepsKnown apart
    have nothing : session.built? request = none ∧ session.registered? request = none := by
      cases request with
      | register spec => exact absurd rfl (apart spec)
      | _ => exact ⟨rfl, rfl⟩
    rw [nothing.1, nothing.2]
    exact kept.advances

theorem advances_served (requests : List Request) (session : Session) :
    Advances session (session.knownAlong built? requests)
      (session.knownAlong registered? requests) (session.served requests) := by
  induction requests generalizing session with
  | nil => exact (KeepsKnown.refl session).advances
  | cons request rest ih => exact (advances_after request session).trans (ih _)

section Names

variable {entity compiledName : String} {memberParent : Option String} {argCount : UInt32}

structure Spelled (interner : Interner) (key : LinkageKey) (entity : String)
    (memberParent : Option String) (compiledName : String) (argCount : UInt32) : Prop where
  entity : interner.lookup? key.entity = some entity
  memberParent : key.memberParent.map interner.lookup? = memberParent.map some
  compiledName : interner.lookup? key.compiledName = some compiledName
  argCount : key.argCount = argCount

structure KeyNames (interner : Interner) (key : LinkageKey) (entity : String)
    (memberParent : Option String) (compiledName : String) : Prop where
  entity : interner.get? entity = some key.entity
  memberParent : key.memberParent.map some = memberParent.map interner.get?
  compiledName : interner.get? compiledName = some key.compiledName

def parentOfString? (interner : Interner) : Option String → Option (Option Name)
  | some parent => (interner.get? parent).map some
  | none => some none

theorem parentOfString?_eq_some_iff {interner : Interner} {name : Option Name} :
    parentOfString? interner memberParent = some name ↔
      name.map some = memberParent.map interner.get? := by
  cases memberParent with
  | none => cases name <;> simp [parentOfString?]
  | some parent =>
      rw [parentOfString?, Option.map_some]
      generalize interner.get? parent = found
      cases found <;> cases name <;> simp [eq_comm]

theorem keyOfStrings?_eq_some_iff :
    session.keyOfStrings? entity memberParent compiledName argCount = some key ↔
      KeyNames session.interner key entity memberParent compiledName ∧
        key.argCount = argCount := by
  have steps : session.keyOfStrings? entity memberParent compiledName argCount =
      (parentOfString? session.interner memberParent).bind fun parent =>
        (session.interner.get? entity).bind fun module =>
          (session.interner.get? compiledName).bind fun compiled =>
            some ⟨module, parent, compiled, argCount⟩ := by
    cases memberParent <;> rfl
  simp only [steps, Option.bind_eq_some_iff, parentOfString?_eq_some_iff]
  constructor
  · rintro ⟨parent, parents, module, modules, compiled, compileds, whole⟩
    cases whole
    exact ⟨⟨modules, parents, compileds⟩, rfl⟩
  · rintro ⟨named, rfl⟩
    exact ⟨_, named.memberParent, _, named.entity, _, named.compiledName, rfl⟩

/-- What the interner gave to the strings is read back as the strings. -/
theorem keyNames_iff_spelled {interner : Interner} (wellFormed : interner.WellFormed) :
    KeyNames interner key entity memberParent compiledName ∧ key.argCount = argCount ↔
      Spelled interner key entity memberParent compiledName argCount := by
  have parents : key.memberParent.map some = memberParent.map interner.get? ↔
      key.memberParent.map interner.lookup? = memberParent.map some := by
    cases key.memberParent <;> cases memberParent <;>
      simp [wellFormed.lookup?_eq_some_iff, @eq_comm _ (some _) (interner.get? _)]
  constructor
  · rintro ⟨named, count⟩
    exact ⟨wellFormed.lookup?_of_get? named.entity, parents.mp named.memberParent,
      wellFormed.lookup?_of_get? named.compiledName, count⟩
  · intro spelled
    exact ⟨⟨wellFormed.lookup?_eq_some_iff.mp spelled.entity, parents.mpr spelled.memberParent,
      wellFormed.lookup?_eq_some_iff.mp spelled.compiledName⟩, spelled.argCount⟩

theorem Registry.keyOfStrings?_eq_some_iff (registry : session.Registry) :
    session.keyOfStrings? entity memberParent compiledName argCount = some key ↔
      Spelled session.interner key entity memberParent compiledName argCount :=
  Session.keyOfStrings?_eq_some_iff.trans (keyNames_iff_spelled registry.interner)

theorem Registry.findKnown?_eq_some_iff (registry : session.Registry) :
    session.findKnown? entity memberParent compiledName argCount = some value ↔
      value ∈ session.known.entries ∧
        Spelled session.interner value.key entity memberParent compiledName argCount := by
  simp only [findKnown?, Option.bind_eq_some_iff, registry.keyOfStrings?_eq_some_iff,
    KnownTable.find?_eq_some_iff registry.distinct]
  constructor
  · rintro ⟨key, spelled, member, rfl⟩
    exact ⟨member, spelled⟩
  · rintro ⟨member, spelled⟩
    exact ⟨value.key, spelled, member, rfl⟩

end Names

/-- Whatever is asked of a session, in which requests may fail, a linkage key leads to the first known
intrinsic built under it, those of the table of rows first, and so do the strings of the key, which
are looked up in the interner and not interned. -/
theorem known_first (created : start.Created) (requests : List Request) :
    let now := start.served requests
    (∀ key, now.known.find? key =
      (start.knownRows ++ start.knownAlong built? requests).find? fun value => value.key = key) ∧
    (∀ spec, Registers spec now (register spec now)) ∧
    now.known.entries = start.knownRows ++ start.knownAlong registered? requests ∧
    now.known.size =
      ((start.knownRows ++ start.knownAlong registered? requests).map Intrinsic.key).dedup.length ∧
    (∀ id, now.intrinsic id = start.intrinsic id) ∧
    ∀ entity memberParent compiledName argCount value,
      now.findKnown? entity memberParent compiledName argCount = some value ↔
        value ∈ now.known.entries ∧
          Spelled now.interner value.key entity memberParent compiledName argCount := by
  have built := created.fresh.toBuilt
  have advances := advances_served requests start
  have registry := advances.registry built.registry
  have rows : start.known.entries = start.knownRows := by
    rw [built.known, knownRows]
  have entries := advances.entries
  rw [rows] at entries
  refine ⟨?_, fun spec => registers spec _, entries, ?_, ?_, ?_⟩
  · intro key
    rw [advances.first, KnownTable.find?, rows, List.find?_append]
  · rw [← entries, List.dedup_eq_self.mpr registry.distinct, List.length_map, KnownTable.size]
  · intro id
    rw [intrinsic, (run_served requests start).evolves.intrinsics, intrinsic]
  · exact fun entity memberParent compiledName argCount value => registry.findKnown?_eq_some_iff

theorem known_first_raise :
    ∃ start : Session, start.Created ∧
      (start.served [.register IntrinsicId.raise.spec]).findKnown? "Operators" none "Raise" 1 =
        some (start.intrinsic .raise) := by
  have module : IntrinsicId.raise.spec.declaredIn.compiledName = "Operators" := by decide +kernel
  have plain : IntrinsicId.raise.spec.memberParent = none := by decide +kernel
  have compiled : IntrinsicId.raise.spec.compiledName = "Raise" := by decide +kernel
  have single : IntrinsicId.raise.spec.signature.argCount = 1 := by decide +kernel
  have known : IntrinsicId.raise.spec.known = true := by decide +kernel
  have valid : ({} : Config).validate = .ok () := rfl
  rcases exists_created valid with ⟨start, created, _⟩
  refine ⟨start, created, ?_⟩
  have built := created.fresh.toBuilt
  have advances := advances_served [.register IntrinsicId.raise.spec] start
  have described := (built.describes .raise).mono advances.interner
  have wellFormed := (advances.registry built.registry).interner
  have row : start.intrinsic .raise ∈ start.knownRows :=
    List.mem_filter.mpr ⟨start.intrinsics.get_mem_entries .raise, described.known.trans known⟩
  rcases known_first created [.register IntrinsicId.raise.spec] with ⟨_, _, entries, _, _, found⟩
  rw [found, entries]
  refine ⟨List.mem_append_left _ row, ?_⟩
  constructor
  case entity => exact wellFormed.lookup?_of_get? (module ▸ described.entity)
  case memberParent =>
    have parent := described.memberParent
    rw [plain, Option.map_none, Option.map_eq_none_iff] at parent
    rw [parent]
    rfl
  case compiledName => exact wellFormed.lookup?_of_get? (compiled ▸ described.compiledName)
  case argCount =>
    rw [described.argCount, single]
    rfl

end Session

end TypeEnv
