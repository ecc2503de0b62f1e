import Mathlib.Algebra.GroupWithZero.Nat
import TypeEnv.Proofs.AttributeRequests
import TypeEnv.Proofs.Registrations
import TypeEnv.Proofs.Templates

namespace TypeEnv

namespace IntrinsicSpec

variable {spec : IntrinsicSpec} {names : IntrinsicNames}

def NoRoom (spec : IntrinsicSpec) (interner : Interner) : Prop :=
  ∃ full after, spec.internNames interner = .error full after ∧ after.Exhausted full

theorem not_noRoom {interner : Interner} (room : interner.Room spec.nameRoom) :
    ¬ spec.NoRoom interner := by
  rintro ⟨full, after, refused, _⟩
  obtain ⟨names, grown, interned, _⟩ := (stops_internNames spec interner).exists_ok
    (show interner.Room (spec.nameRoom + 0) from room)
  rw [interned] at refused
  cases refused

theorem exists_instantiate_iff (length : names.typars.length = spec.typars.length)
    (tycons : WellKnownTycons) (prims : PrimitiveTypes) (node : NodeId) :
    (∃ value, spec.instantiate names tycons prims node = .ok value) ↔
      ¬ spec.signature.Faulty spec.typars.length := by
  rw [Signature.faulty_iff, not_not]
  constructor
  · rintro ⟨value, made⟩
    rcases exists_of_bind made with ⟨groups, madeGroups, inner⟩
    rcases exists_of_bind inner with ⟨ret, madeRet, _⟩
    rw [Signature.closed, Bool.and_eq_true, ← length]
    exact ⟨Template.closed_of_becomes (TemplateContext.becomes_of_instantiateGroups madeGroups),
      (TemplateContext.becomes_of_instantiate madeRet).closed⟩
  · exact fun closed => exists_instantiate closed length

end IntrinsicSpec

/-- The intrinsic has the type parameters of the description, each at its place; its arguments and its
result are what the templates of the description become over them; its full type takes the groups of
arguments and gives the result; the word in its linkage key counts the arguments; and no type in it
has type parameters but its own. -/
structure Intrinsic.TakesGroups (value : Intrinsic) (spec : IntrinsicSpec)
    (tycons : WellKnownTycons) (prims : PrimitiveTypes) : Prop where
  placed : value.typars.map TyParam.index = List.range spec.typars.length
  args : List.Forall₂ (List.Forall₂ (Template.Becomes tycons prims value.typars))
    spec.signature.args value.argGroups
  ret : spec.signature.ret.Becomes tycons prims value.typars value.ret
  curried : prims.Curried value.argGroups value.ret value.ty
  argCount : value.key.argCount = UInt32.ofNat (value.argGroups.map List.length).sum
  params : ∀ ty ∈ value.ty :: value.ret :: value.argGroups.flatten,
    ∀ param ∈ ty.params, param ∈ value.typars

theorem TyParam.exists_pair {typars : List TyParam}
    (placed : typars.map TyParam.index = List.range 2) :
    ∃ left right, typars = [left, right] ∧ left.index = 0 ∧ right.index = 1 := by
  obtain ⟨left, rest, rfl, first, placed⟩ := List.map_eq_cons_iff.mp placed
  obtain ⟨right, rfl, second⟩ := List.map_eq_singleton_iff.mp placed
  exact ⟨left, right, rfl, first, second⟩

theorem Intrinsic.TakesGroups.alike {value : Intrinsic} {spec : IntrinsicSpec}
    {tycons : WellKnownTycons} {prims : PrimitiveTypes} {groups : List (List Ty)} {ret ty : Ty}
    (takes : value.TakesGroups spec tycons prims)
    (args : List.Forall₂ (List.Forall₂ (Template.Becomes tycons prims value.typars))
      spec.signature.args groups)
    (result : spec.signature.ret.Becomes tycons prims value.typars ret)
    (curried : prims.Curried groups ret ty) : value.ty.Alike ty :=
  takes.curried.alike curried (Template.map_shapes_eq_of_becomes takes.args args)
    (takes.ret.alike result)

theorem Intrinsic.MadeFrom.takesGroups {value : Intrinsic} {spec : IntrinsicSpec}
    {tycons : WellKnownTycons} {prims : PrimitiveTypes} {interner : Interner}
    (made : value.MadeFrom spec tycons prims interner) : value.TakesGroups spec tycons prims := by
  rcases made with ⟨names, node, spell, instantiated⟩
  rcases exists_of_bind instantiated with ⟨groups, madeGroups, inner⟩
  rcases exists_of_bind inner with ⟨ret, madeRet, whole⟩
  cases whole
  let context : TemplateContext := ⟨tycons, prims, names.typars.map (.var node)⟩
  have ofArgs := TemplateContext.becomes_of_instantiateGroups madeGroups
  have ofRet := TemplateContext.becomes_of_instantiate madeRet
  constructor
  case placed => exact spell.placed
  case args => exact ofArgs
  case ret => exact ofRet
  case curried => exact context.curried_curriedTy node groups ret
  case argCount =>
    have lengths := Template.map_length_eq_of_becomes ofArgs
    simp only [Signature.argCount, List.length_flatten, lengths]
  case params =>
    have inArgs := Template.mem_params_of_becomes ofArgs
    refine List.forall_mem_cons.mpr ⟨?_, List.forall_mem_cons.mpr ⟨ofRet.mem_params, inArgs⟩⟩
    intro param member
    rw [TemplateContext.params_curriedTy, List.mem_append] at member
    rcases member with inArg | inRet
    · obtain ⟨ty, listed, inside⟩ := List.mem_flatMap.mp inArg
      exact inArgs ty listed param inside
    · exact ofRet.mem_params param inRet

namespace Session

variable {start session before next : Session} {spec : IntrinsicSpec} {value : Intrinsic}
  {key other : LinkageKey} {entity compiledName : String} {memberParent : Option String}
  {argCount : UInt32} {interner grown : Interner}

theorem KeyNames.mono (named : KeyNames interner key entity memberParent compiledName)
    (extended : interner.Extends grown) :
    KeyNames grown key entity memberParent compiledName where
  entity := Interner.get?_mono extended.toGrows named.entity
  memberParent := Interner.map_get?_mono named.memberParent extended
  compiledName := Interner.get?_mono extended.toGrows named.compiledName

theorem KeyNames.key_eq (named : KeyNames interner key entity memberParent compiledName)
    (namedToo : KeyNames interner other entity memberParent compiledName)
    (counts : key.argCount = other.argCount) : key = other := by
  have entities := Option.some.inj (named.entity.symm.trans namedToo.entity)
  have compileds := Option.some.inj (named.compiledName.symm.trans namedToo.compiledName)
  have parents := named.memberParent.trans namedToo.memberParent.symm
  rw [Option.map_inj_right fun _ _ => Option.some.inj] at parents
  cases key
  cases other
  simp only [LinkageKey.mk.injEq]
  exact ⟨entities, parents, compileds, counts⟩

theorem keyNames_of_described (described : value.Described spec interner) :
    KeyNames interner value.key spec.declaredIn.compiledName spec.memberParent spec.compiledName :=
  ⟨described.entity, described.memberParent, described.compiledName⟩

def KeysNamed (session : Session) : Prop :=
  ∀ value ∈ session.known.entries, ∃ entity memberParent compiledName,
    KeyNames session.interner value.key entity memberParent compiledName

theorem Built.keysNamed (built : session.Built) : session.KeysNamed := by
  intro value member
  obtain ⟨place, bound, rfl⟩ := List.mem_iff_getElem.mp (built.mem_known_iff.mp member).1
  have inside := built.intrinsics.length_eq ▸ bound
  exact ⟨_, _, _, keyNames_of_described (built.intrinsics.get inside bound).described⟩

theorem instantiate_eq (spec : IntrinsicSpec) (session : Session) :
    instantiate spec session =
      match spec.internNames session.interner with
      | .error full interner => .error (fullShard full) { session with interner }
      | .ok names interner =>
        let next := { session with interner, nextNode := session.nextNode + 1 }
        match spec.instantiate names session.tycons session.prims session.nextNode with
        | .ok value => .ok value next
        | .error breach => .error (.breach breach) next := by
  simp only [instantiate, bind, EStateM.bind, interns, reportFull, EStateM.adaptExcept]
  cases spec.internNames session.interner with
  | error full interner => rfl
  | ok names interner =>
      let next := { session with interner, nextNode := session.nextNode + 1 }
      have number : freshNode { session with interner } = .ok session.nextNode next := rfl
      have read : (get : SessionM Session) next = .ok next next := rfl
      simp only [number, read, next]
      cases spec.instantiate names session.tycons session.prims session.nextNode <;> rfl

theorem madeFrom_of_instantiate (success : instantiate spec session = .ok value next) :
    value.MadeFrom spec session.tycons session.prims next.interner := by
  rw [instantiate_eq] at success
  cases interned : spec.internNames session.interner with
  | error full interner =>
      rw [interned] at success
      cases success
  | ok names interner =>
      have spell := (IntrinsicSpec.ensures_internNames session.interner spec names interner
        interned).2
      simp only [interned] at success
      split at success
      case h_1 made =>
        cases success
        exact ⟨names, session.nextNode, spell, made⟩
      case h_2 => cases success

theorem described_of_registered? {request : Request}
    (registered : session.registered? request = some value) :
    ∃ spec, value.Described spec (session.after request.perform).interner := by
  cases request with
  | register spec =>
      refine ⟨spec, ?_⟩
      rw [Request.perform, after_discard]
      have outcome := registers spec session
      simp only [registered?, after] at registered ⊢
      generalize register spec session = result at outcome registered
      cases outcome with
      | failed built kept => cases registered
      | occupied built known taken kept => cases registered
      | other built unknown kept =>
          cases registered
          exact (madeFrom_of_instantiate built).described
      | added built known free kept =>
          cases registered
          exact (madeFrom_of_instantiate built).described
  | _ => cases registered

theorem KeysNamed.after (named : session.KeysNamed) (request : Request) :
    (session.after request.perform).KeysNamed := by
  have advances := advances_after request session
  intro value member
  rw [advances.entries, List.mem_append] at member
  rcases member with earlier | added
  · obtain ⟨entity, memberParent, compiledName, names⟩ := named value earlier
    exact ⟨entity, memberParent, compiledName, names.mono advances.interner⟩
  · have registered := Option.mem_toList.mp (List.mem_filter.mp added).1
    obtain ⟨spec, described⟩ := described_of_registered? registered
    exact ⟨_, _, _, keyNames_of_described described⟩

theorem Run.keysNamed (run : Run before next) (named : before.KeysNamed) : next.KeysNamed := by
  induction run with
  | refl => exact named
  | tail _ step ih =>
      obtain ⟨request, rfl⟩ := step
      exact ih.after request

/-- The description is of a known intrinsic, and there is one under its linkage key. -/
def Occupied (session : Session) (spec : IntrinsicSpec) : Prop :=
  spec.known = true ∧
    (session.findKnown? spec.declaredIn.compiledName spec.memberParent spec.compiledName
      (UInt32.ofNat spec.signature.argCount)).isSome

theorem isSome_find?_iff (wellFormed : session.interner.WellFormed) (named : session.KeysNamed)
    (extended : session.interner.Extends grown) (described : value.Described spec grown) :
    (session.known.find? value.key).isSome ↔
      (session.findKnown? spec.declaredIn.compiledName spec.memberParent spec.compiledName
        (UInt32.ofNat spec.signature.argCount)).isSome := by
  have own := keyNames_of_described described
  simp only [findKnown?, Option.isSome_iff_exists, Option.bind_eq_some_iff,
    keyOfStrings?_eq_some_iff]
  constructor
  · rintro ⟨holder, found⟩
    obtain ⟨member, same⟩ := KnownTable.mem_of_find? found
    obtain ⟨entity, memberParent, compiledName, names⟩ := named holder member
    rw [same] at names
    -- The key was named before, so its strings are those of the description.
    have later := names.mono extended
    have formed := extended.wellFormed wellFormed
    obtain rfl := formed.get?_injective later.entity own.entity
    obtain rfl := formed.get?_injective later.compiledName own.compiledName
    obtain rfl := formed.map_get?_injective later.memberParent own.memberParent
    exact ⟨holder, value.key, ⟨names, described.argCount⟩, found⟩
  · rintro ⟨holder, key, ⟨names, count⟩, found⟩
    have same := (names.mono extended).key_eq own (count.trans described.argCount.symm)
    exact ⟨holder, same ▸ found⟩

/-- What registering does where the names of the description have room: it fails on a faulty template
and on a key that is taken. -/
theorem register_fails_iff {names : IntrinsicNames} (wellFormed : session.interner.WellFormed)
    (named : session.KeysNamed) (interned : spec.internNames session.interner = .ok names grown) :
    (∃ failure next, register spec session = .error failure next) ↔
      spec.signature.Faulty spec.typars.length ∨ session.Occupied spec := by
  obtain ⟨extended, spell⟩ :=
    IntrinsicSpec.ensures_internNames session.interner spec names grown interned
  have makes := IntrinsicSpec.exists_instantiate_iff (TyParam.length_of_placed spell.placed)
    session.tycons session.prims session.nextNode
  rw [register_eq, instantiate_eq, interned]
  dsimp only
  cases made : spec.instantiate names session.tycons session.prims session.nextNode with
  | error breach =>
      refine iff_of_true ⟨_, _, rfl⟩ (Or.inl ?_)
      by_contra sound
      obtain ⟨value, success⟩ := makes.mpr sound
      rw [made] at success
      cases success
  | ok value =>
      have described := Intrinsic.MadeFrom.described ⟨names, session.nextNode, spell, made⟩
      have sound : ¬ spec.signature.Faulty spec.typars.length := makes.mp ⟨value, made⟩
      have taken := isSome_find?_iff wellFormed named extended described
      rw [or_iff_right sound, Occupied, ← taken, ← described.known]
      dsimp only
      cases known : value.known with
      | false => exact iff_of_false (by simp) (by simp)
      | true =>
          rw [if_pos rfl]
          cases held : session.known.find? value.key with
          | none =>
              rw [KnownTable.insert_of_free held]
              exact iff_of_false (by simp) (by simp)
          | some holder =>
              simp only [KnownTable.insert, held]
              exact iff_of_true ⟨_, _, rfl⟩ ⟨trivial, rfl⟩

theorem register_fails_iff_noRoom (wellFormed : session.interner.WellFormed)
    (named : session.KeysNamed) (spec : IntrinsicSpec) :
    (∃ failure next, register spec session = .error failure next) ↔
      spec.NoRoom session.interner ∨ spec.signature.Faulty spec.typars.length ∨
        session.Occupied spec := by
  cases interned : spec.internNames session.interner with
  | error full grown =>
      obtain ⟨_, rfl, exhausted⟩ := ((stops_internNames spec _).of_error interned).2 wellFormed
      refine iff_of_true ?_ (Or.inl ⟨_, grown, interned, exhausted⟩)
      rw [register_eq, instantiate_eq, interned]
      exact ⟨_, _, rfl⟩
  | ok names grown =>
      have room : ¬ spec.NoRoom session.interner := by
        rintro ⟨full, after, refused, _⟩
        rw [interned] at refused
        cases refused
      rw [or_iff_right room]
      exact register_fails_iff wellFormed named interned

theorem exists_register_ok (wellFormed : session.interner.WellFormed) (named : session.KeysNamed)
    (room : session.interner.Room spec.nameRoom)
    (sound : ¬ spec.signature.Faulty spec.typars.length) (free : ¬ session.Occupied spec) :
    ∃ value next, register spec session = .ok value next := by
  cases outcome : register spec session with
  | ok value next => exact ⟨value, next, rfl⟩
  | error failure next =>
      have refuses := register_fails_iff_noRoom wellFormed named spec
      rcases refuses.mp ⟨failure, next, outcome⟩ with full | faulty | occupied
      · exact absurd full (IntrinsicSpec.not_noRoom room)
      · exact absurd faulty sound
      · exact absurd occupied free

theorem known_of_register_error {failure : Failure}
    (refused : register spec session = .error failure next) : next.known = session.known := by
  have outcome := registers spec session
  rw [refused] at outcome
  cases outcome with
  | failed built kept => exact kept.known
  | occupied built known taken kept => exact kept.known

theorem known_of_register_ok (success : register spec session = .ok value next) :
    value.TakesGroups spec session.tycons session.prims ∧
      next.known.entries = session.known.entries ++ if spec.known then [value] else [] := by
  have outcome := registers spec session
  rw [success] at outcome
  cases outcome with
  | other built unknown kept =>
      have made := madeFrom_of_instantiate built
      rw [made.described.known] at unknown
      rw [unknown, kept.known, if_neg Bool.false_ne_true, List.append_nil]
      exact ⟨made.takesGroups, rfl⟩
  | added built known free kept =>
      have made := madeFrom_of_instantiate built
      rw [made.described.known] at known
      rw [known, if_pos rfl]
      exact ⟨made.takesGroups, rfl⟩

/-- A description is refused exactly if a shard is full for its names, if a template of it asks for a
type parameter or an array rank that is not there, or if it is known and its linkage key is taken;
then nothing is registered. Else the arguments and the result of the intrinsic are what its templates
become, its full type takes the arguments group by group, and it is registered if it is known. -/
theorem register_exact (created : start.Created) (run : Run start session) (spec : IntrinsicSpec) :
    ((∃ failure next, register spec session = .error failure next) ↔
      spec.NoRoom session.interner ∨ spec.signature.Faulty spec.typars.length ∨
        session.Occupied spec) ∧
    (session.interner.Room spec.nameRoom → ¬ spec.NoRoom session.interner) ∧
    (∀ failure next, register spec session = .error failure next → next.known = session.known) ∧
    ∀ value next, register spec session = .ok value next →
      value.TakesGroups spec session.tycons session.prims ∧
      next.known.entries = session.known.entries ++ if spec.known then [value] else [] := by
  have built := created.fresh.toBuilt
  have wellFormed := run.extends.wellFormed built.interner
  have named := run.keysNamed built.keysNamed
  exact ⟨register_fails_iff_noRoom wellFormed named spec, IntrinsicSpec.not_noRoom,
    fun _ _ refused => known_of_register_error refused,
    fun _ _ success => known_of_register_ok success⟩

/-- Groups of no argument, of one and of two are taken one after the other; a row of the table that is
registered again is refused. -/
theorem register_exact_groups :
    ∃ (start : Session) (spec : IntrinsicSpec), start.Created ∧ Run start start ∧
      spec.signature = ⟨[[], [.t], [.t, .u]], .array 2 .u⟩ ∧ spec.typars = ["T", "U"] ∧
      (∃ value next left right matrix, register spec start = .ok value next ∧
        value.TakesGroups spec start.tycons start.prims ∧
        value.typars = [left, right] ∧ left.index = 0 ∧ right.index = 1 ∧
        start.tycons.array 2 = .ok matrix ∧
        value.ty.Alike (.fn 0 (start.prims.get .unit)
          (.fn 0 (.var 0 left)
            (.fn 0 (.tuple 0 .reference [.var 0 left, .var 0 right])
              (.app 0 matrix [.var 0 right] .withoutNull) .withoutNull)
            .withoutNull) .withoutNull)) ∧
      ∃ failure next, register IntrinsicId.raise.spec start = .error failure next ∧
        next.known = start.known := by
  have valid : ({} : Config).validate = .ok () := rfl
  obtain ⟨start, created, _, _, _, room⟩ := exists_roomy valid
  let spec : IntrinsicSpec :=
    { IntrinsicId.raise.spec with
      typars := ["T", "U"], signature := ⟨[[], [.t], [.t, .u]], .array 2 .u⟩, known := false }
  refine ⟨start, spec, created, .refl, rfl, rfl, ?made, ?refused⟩
  case made =>
    have built := created.fresh.toBuilt
    have fits : spec.nameRoom ≤ spareRoom := by decide +kernel
    have sound : ¬ spec.signature.Faulty spec.typars.length := by
      rw [Signature.faulty_iff, not_not]
      rfl
    have free : ¬ start.Occupied spec := fun occupied => Bool.false_ne_true occupied.1
    obtain ⟨value, next, outcome⟩ := exists_register_ok built.interner built.keysNamed
      (room.weaken fits) sound free
    obtain ⟨_, _, _, registered⟩ := register_exact created .refl spec
    have takes := (registered value next outcome).1
    obtain ⟨left, right, typars, first, second⟩ := TyParam.exists_pair takes.placed
    obtain ⟨matrix, ranked⟩ :=
      TemplateContext.exists_array start.tycons (show 1 ≤ 2 ∧ 2 ≤ maxArrayRank by decide)
    have ofLeft : Template.t.Becomes start.tycons start.prims value.typars (.var 0 left) :=
      .param (by rw [typars]; rfl)
    have ofRight : Template.u.Becomes start.tycons start.prims value.typars (.var 0 right) :=
      .param (by rw [typars]; rfl)
    refine ⟨value, next, left, right, matrix, outcome, takes, typars, first, second, ranked, ?_⟩
    exact takes.alike
      (.cons .nil (.cons (.cons ofLeft .nil) (.cons (.cons ofLeft (.cons ofRight .nil)) .nil)))
      (.array ranked ofRight)
      (.takes .empty (.takes .single (.takes (.several (Nat.le_refl 2)) .result)))
  case refused =>
    obtain ⟨refuses, _, failed, _⟩ := register_exact created .refl IntrinsicId.raise.spec
    have built := created.fresh.toBuilt
    have described := built.describes .raise
    have known : IntrinsicId.raise.spec.known = true := by decide +kernel
    have held := built.linked.found .raise
    rw [described.known, known, if_pos rfl] at held
    have taken := (isSome_find?_iff built.interner built.keysNamed (.refl _) described).mp
      (Option.isSome_of_eq_some held)
    obtain ⟨failure, next, outcome⟩ := refuses.mpr (Or.inr (Or.inr ⟨known, taken⟩))
    exact ⟨failure, next, outcome, failed failure next outcome⟩

end Session

end TypeEnv
