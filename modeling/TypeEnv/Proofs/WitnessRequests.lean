import TypeEnv.Proofs.WellKnownNames
import TypeEnv.Proofs.WitnessTypes

namespace TypeEnv

/-- The number of operands of a trait member, and whether it must have a result. Element access has
no fixed number. -/
inductive TraitMember.Takes : (member : String) → (count : Nat) → (needsResult : Bool) → Prop where
  | binary {member : String} (named : member ∈ TraitMember.binary) : Takes member 2 true
  | relational {member : String} (named : member ∈ TraitMember.relational) : Takes member 2 false
  | unary {member : String} (named : member ∈ TraitMember.unary ∨ member ∈ TraitMember.conversion) :
    Takes member 1 true
  | constant {member : String} (named : member ∈ TraitMember.constant) : Takes member 0 true
  | sameType {member : String} (named : member ∈ TraitMember.sameType) : Takes member 1 false
  | sqrt : Takes "Sqrt" 1 true
  | atan2 : Takes "Atan2" 2 true
  | pow : Takes "Pow" 2 false
  | sign : Takes "Sign" 1 false

namespace WitnessFamily

variable {member : String} {family : WitnessFamily} {count : Nat} {needsResult : Bool}

/-- The fixed shape of what the members of the family take, but for element access. -/
def shape? : WitnessFamily → Option (Nat × Bool)
  | .binary _ => some (2, true)
  | .relational _ => some (2, false)
  | .unary _ => some (1, true)
  | .constant _ => some (0, true)
  | .mathSame _ => some (1, false)
  | .mathMapped _ => some (1, true)
  | .atan2 => some (2, true)
  | .pow => some (2, false)
  | .sign => some (1, false)
  | .getItem => none
  | .setItem => none

theorem shape?_eq_none_iff : family.shape? = none ↔ family = .getItem ∨ family = .setItem := by
  cases family <;> simp [shape?]

theorem Serves.takes (serves : family.Serves member)
    (shaped : family.shape? = some (count, needsResult)) :
    TraitMember.Takes member count needsResult := by
  cases serves with
  | binary named _ _ => cases shaped; exact .binary named
  | relational named _ _ => cases shaped; exact .relational named
  | unary named _ _ => cases shaped; exact .unary named
  | constant named _ _ => cases shaped; exact .constant named
  | mathSame named _ _ => cases shaped; exact .sameType named
  | mathMapped _ _ => cases shaped; exact .sqrt
  | atan2 => cases shaped; exact .atan2
  | pow => cases shaped; exact .pow
  | sign => cases shaped; exact .sign
  | getItem => cases shaped
  | setItem => cases shaped

theorem exists_of_takes (takes : TraitMember.Takes member count needsResult) :
    ∃ family, ofTrait? member = some family ∧ family.shape? = some (count, needsResult) := by
  apply Option.bind_eq_some_iff.mp
  have rows : (∀ name ∈ TraitMember.binary, (ofTrait? name).bind shape? = some (2, true)) ∧
      (∀ name ∈ TraitMember.relational, (ofTrait? name).bind shape? = some (2, false)) ∧
      (∀ name ∈ TraitMember.unary, (ofTrait? name).bind shape? = some (1, true)) ∧
      (∀ name ∈ TraitMember.conversion, (ofTrait? name).bind shape? = some (1, true)) ∧
      (∀ name ∈ TraitMember.constant, (ofTrait? name).bind shape? = some (0, true)) ∧
      ∀ name ∈ TraitMember.sameType, (ofTrait? name).bind shape? = some (1, false) := by decide
  obtain ⟨binary, relational, unary, conversion, constant, sameType⟩ := rows
  cases takes with
  | binary named => exact binary _ named
  | relational named => exact relational _ named
  | unary named => exact named.elim (unary _) (conversion _)
  | constant named => exact constant _ named
  | sameType named => exact sameType _ named
  | sqrt => rfl
  | atan2 => rfl
  | pow => rfl
  | sign => rfl

theorem isSome_getArray?_iff {rank : Nat} : (getArray? rank).isSome ↔ 1 ≤ rank ∧ rank ≤ 4 := by
  unfold getArray?
  split
  case h_5 other => grind
  all_goals simp

theorem isSome_setArray?_iff {rank : Nat} : (setArray? rank).isSome ↔ 1 ≤ rank ∧ rank ≤ 4 := by
  unfold setArray?
  split
  case h_5 other => grind
  all_goals simp

end WitnessFamily

namespace WellKnownTycons

variable {tycons : WellKnownTycons} {scope : TyconScope} {interner : Interner} {member : String}
  {family : WitnessFamily} {operands : List Ty} {result : Option Ty}

def IsString (tycons : WellKnownTycons) (ty : Ty) : Prop :=
  ∃ node head args nullness, ty = .app node head args nullness ∧ head.Same (tycons.corePrim .string)

def IsArray (tycons : WellKnownTycons) (rank : Nat) (ty : Ty) : Prop :=
  ∃ node head elem nullness own, ty = .app node head [elem] nullness ∧
    tycons.array rank = .ok own ∧ own.Same head

inductive Accepts (tycons : WellKnownTycons) :
    (member : String) → (operands : List Ty) → (result : Option Ty) → Prop where
  | operation {member : String} {count : Nat} {needsResult : Bool} {operands : List Ty}
    {result : Option Ty} (takes : TraitMember.Takes member count needsResult)
    (counted : operands.length = count) (present : needsResult = true → result.isSome) :
    Accepts tycons member operands result
  | readString {target index ret : Ty} (isString : tycons.IsString target) :
    Accepts tycons "get_Item" [target, index] (some ret)
  | readArray {rank : Nat} {target ret : Ty} {indices : List Ty}
    (isArray : tycons.IsArray rank target) (bounded : 1 ≤ rank ∧ rank ≤ 4)
    (counted : indices.length = rank) : Accepts tycons "get_Item" (target :: indices) (some ret)
  | writeArray {rank : Nat} {target : Ty} {rest : List Ty} {result : Option Ty}
    (isArray : tycons.IsArray rank target) (bounded : 1 ≤ rank ∧ rank ≤ 4)
    (counted : rest.length = rank + 1) : Accepts tycons "set_Item" (target :: rest) result

theorem isStringTy_iff {ty : Ty} : tycons.isStringTy ty = true ↔ tycons.IsString ty := by
  cases ty <;> simp [isStringTy, Ty.isAppOf, IsString]

theorem Located.isArray_iff (located : tycons.Located scope interner)
    (wellFormed : interner.WellFormed) {rank : Nat} {ty : Ty} :
    tycons.IsArray rank ty ↔ ∃ elem, tycons.array? ty = some (rank, elem) := by
  constructor
  · rintro ⟨node, head, elem, nullness, own, rfl, ranked, same⟩
    have known := (located.arrayRank?_eq_some_iff wellFormed).mpr ⟨own, ranked, same⟩
    exact ⟨elem, by rw [array?, known, Option.map_some]⟩
  · rintro ⟨elem, found⟩
    rcases exists_of_array? found with ⟨node, head, nullness, own, rfl, ranked, same⟩
    exact ⟨node, head, elem, nullness, own, rfl, ranked, same⟩

/-- What reading and writing have in common: the target is an array of a rank that has an intrinsic,
and the other operands fit the rank. -/
theorem Located.isSome_access_iff (located : tycons.Located scope interner)
    (wellFormed : interner.WellFormed) {target : Ty} (access? : Nat → Option IntrinsicId)
    (ranks : ∀ {rank}, (access? rank).isSome ↔ 1 ≤ rank ∧ rank ≤ 4) (fits : Nat → Prop)
    [DecidablePred fits] :
    ((do
      let (rank, elem) ← tycons.array? target
      let id ← access? rank
      if fits rank then some (Witness.mk id [elem]) else none).isSome = true) ↔
      ∃ rank, tycons.IsArray rank target ∧ (1 ≤ rank ∧ rank ≤ 4) ∧ fits rank := by
  constructor
  · intro accepted
    rcases Option.isSome_iff_exists.mp accepted with ⟨witness, found⟩
    rcases Option.bind_eq_some_iff.mp found with ⟨⟨rank, elem⟩, array, inner⟩
    rcases Option.bind_eq_some_iff.mp inner with ⟨id, accessor, counted⟩
    have isArray := (located.isArray_iff wellFormed).mpr ⟨elem, array⟩
    have bounded := ranks.mp (Option.isSome_of_eq_some accessor)
    split at counted
    case isTrue fit => exact ⟨rank, isArray, bounded, fit⟩
    case isFalse => cases counted
  · rintro ⟨rank, isArray, bounded, fit⟩
    rcases (located.isArray_iff wellFormed).mp isArray with ⟨elem, array⟩
    rcases Option.isSome_iff_exists.mp (ranks.mpr bounded) with ⟨id, accessor⟩
    simp only [array, accessor, Option.bind_eq_bind, Option.bind_some, if_pos fit,
      Option.isSome_some]

theorem Located.isSome_getItem?_iff (located : tycons.Located scope interner)
    (wellFormed : interner.WellFormed) {target : Ty} {indices : List Ty} :
    (tycons.getItem? target indices).isSome ↔
      tycons.IsString target ∧ indices.length = 1 ∨
        ∃ rank, tycons.IsArray rank target ∧ (1 ≤ rank ∧ rank ≤ 4) ∧ indices.length = rank := by
  rw [← isStringTy_iff, ← located.isSome_access_iff wellFormed WitnessFamily.getArray?
    WitnessFamily.isSome_getArray?_iff (indices.length = ·), getItem?]
  split
  case isTrue reads =>
    rw [Bool.and_eq_true, beq_iff_eq] at reads
    exact iff_of_true rfl (Or.inl reads)
  case isFalse other =>
    rw [Bool.and_eq_true, beq_iff_eq] at other
    exact (or_iff_right other).symm

theorem Located.isSome_setItem?_iff (located : tycons.Located scope interner)
    (wellFormed : interner.WellFormed) {target : Ty} {rest : List Ty} :
    (tycons.setItem? target rest).isSome ↔
      ∃ rank, tycons.IsArray rank target ∧ (1 ≤ rank ∧ rank ≤ 4) ∧ rest.length = rank + 1 :=
  located.isSome_access_iff wellFormed WitnessFamily.setArray? WitnessFamily.isSome_setArray?_iff
    (rest.length = · + 1)

theorem isSome_witness?_of_shape {count : Nat} {needsResult : Bool}
    (shaped : family.shape? = some (count, needsResult)) :
    (tycons.witness? family operands result).isSome ↔
      operands.length = count ∧ (needsResult = true → result.isSome) := by
  rcases operands with _ | ⟨first, _ | ⟨second, _ | ⟨third, rest⟩⟩⟩ <;> cases result <;>
    cases family <;> cases shaped <;> simp [witness?]

theorem resolveBuiltin_of_unknown (request : WitnessRequest)
    (unknown : interner.lookup? request.traitName = none) :
    tycons.resolveBuiltin interner request =
      .error (.unsupportedWitness request.traitName.describe request.shape) := by
  rw [resolveBuiltin, unknown]

theorem resolveBuiltin_of_known (request : WitnessRequest)
    (known : interner.lookup? request.traitName = some member) :
    tycons.resolveBuiltin interner request =
      (((WitnessFamily.ofTrait? member).bind fun family =>
        tycons.witness? family request.operands request.result).elim
          (.error (.unsupportedWitness member request.shape)) .ok) := by
  rw [resolveBuiltin, known]
  dsimp only
  split
  case h_1 matched => rw [matched, Option.elim_some]
  case h_2 matched => rw [matched, Option.elim_none]

theorem Located.isSome_matched_iff (located : tycons.Located scope interner)
    (wellFormed : interner.WellFormed) (member : String) (operands : List Ty)
    (result : Option Ty) :
    ((WitnessFamily.ofTrait? member).bind fun family =>
      tycons.witness? family operands result).isSome ↔ tycons.Accepts member operands result := by
  constructor
  · intro accepted
    rcases Option.isSome_iff_exists.mp accepted with ⟨witness, found⟩
    rcases Option.bind_eq_some_iff.mp found with ⟨family, serving, matched⟩
    have serves := WitnessFamily.serves_of_ofTrait? serving
    have isMatched := Option.isSome_of_eq_some matched
    cases shaped : family.shape? with
    | some shape =>
        rcases (isSome_witness?_of_shape shaped).mp isMatched with ⟨counted, present⟩
        exact .operation (serves.takes shaped) counted present
    | none =>
        rcases WitnessFamily.shape?_eq_none_iff.mp shaped with rfl | rfl
        · cases serves
          match operands, result with
          | target :: indices, some ret =>
              rcases (located.isSome_getItem?_iff wellFormed).mp isMatched with
                ⟨isString, one⟩ | ⟨rank, isArray, bounded, counted⟩
              · rcases List.length_eq_one_iff.mp one with ⟨index, rfl⟩
                exact .readString isString
              · exact .readArray isArray bounded counted
        · cases serves
          match operands with
          | target :: rest =>
              rcases (located.isSome_setItem?_iff wellFormed).mp isMatched with
                ⟨rank, isArray, bounded, counted⟩
              exact .writeArray isArray bounded counted
  · intro accepts
    cases accepts with
    | operation takes counted present =>
        rcases WitnessFamily.exists_of_takes takes with ⟨family, serving, shaped⟩
        rw [serving]
        exact (isSome_witness?_of_shape shaped).mpr ⟨counted, present⟩
    | readString isString =>
        exact (located.isSome_getItem?_iff wellFormed).mpr (Or.inl ⟨isString, rfl⟩)
    | readArray isArray bounded counted =>
        exact (located.isSome_getItem?_iff wellFormed).mpr (Or.inr ⟨_, isArray, bounded, counted⟩)
    | writeArray isArray bounded counted =>
        exact (located.isSome_setItem?_iff wellFormed).mpr ⟨_, isArray, bounded, counted⟩

end WellKnownTycons

namespace Session

variable {start session : Session}

theorem run_intern {text : String} {name : Name} {grown : Interner}
    (interned : session.interner.tryIntern text = .ok (name, grown)) :
    Run session { session with interner := grown } := by
  have outcome : Interner.intern text session.interner = .ok name grown := by
    simp only [Interner.intern, interned]
  have reported : reportFull (Interner.intern text) session.interner = .ok name grown := by
    simp only [reportFull, EStateM.adaptExcept, outcome]
  refine .single ⟨.intern text, ?_⟩
  rw [Request.perform, after_discard]
  simp only [after, interns, reported]

/-- A request has a witness exactly if its name is known and its operands and its result are what the
member of that name takes; every other request is refused with its number of operands and with
whether it had a result. -/
theorem resolveBuiltin_exact (created : start.Created) (run : Run start session)
    (request : WitnessRequest) :
    ((∃ witness, session.tycons.resolveBuiltin session.interner request = .ok witness) ↔
      ∃ member, session.interner.lookup? request.traitName = some member ∧
        session.tycons.Accepts member request.operands request.result) ∧
    ((∃ witness, session.tycons.resolveBuiltin session.interner request = .ok witness) ∨
      session.tycons.resolveBuiltin session.interner request =
        .error (.unsupportedWitness
          ((session.interner.lookup? request.traitName).getD request.traitName.describe)
          ⟨request.operands.length, request.result.isSome⟩)) := by
  have fresh := created.fresh
  have located := fresh.located_run run
  cases known : session.interner.lookup? request.traitName with
  | none =>
      rw [WellKnownTycons.resolveBuiltin_of_unknown request known]
      exact ⟨iff_of_false nofun nofun, Or.inr rfl⟩
  | some member =>
      have admitted :=
        located.isSome_matched_iff fresh.interner member request.operands request.result
      have named : (∃ other, some member = some other ∧
          session.tycons.Accepts other request.operands request.result) ↔
          session.tycons.Accepts member request.operands request.result := by simp
      rw [named, ← admitted, WellKnownTycons.resolveBuiltin_of_known request known]
      cases (WitnessFamily.ofTrait? member).bind fun family =>
          session.tycons.witness? family request.operands request.result with
      | none => exact ⟨iff_of_false nofun nofun, Or.inr rfl⟩
      | some witness => exact ⟨iff_of_true ⟨witness, rfl⟩ rfl, Or.inl ⟨witness, rfl⟩⟩

theorem resolveBuiltin_exact_array :
    ∃ (start session : Session) (own : TyconRef) (name : Name) (elem index : Ty), start.Created ∧
      Run start session ∧ session.tycons.array 4 = .ok own ∧
      session.interner.lookup? name = some "get_Item" ∧
      (∃ witness, session.tycons.resolveBuiltin session.interner
        ⟨name, .app 1 own [elem] .withNull :: List.replicate 4 index, some elem⟩ = .ok witness) ∧
      session.tycons.resolveBuiltin session.interner
        ⟨name, .app 1 own [elem] .withNull :: List.replicate 4 index, none⟩ =
          .error (.unsupportedWitness "get_Item" ⟨5, false⟩) := by
  have valid : ({} : Config).validate = .ok () := rfl
  obtain ⟨start, created, _, _, _, room⟩ := exists_roomy valid
  obtain ⟨name, grown, interned⟩ :=
    Interner.exists_tryIntern (room.weaken (by decide : 1 ≤ spareRoom)) "get_Item"
  have bounded : 1 ≤ 4 ∧ 4 ≤ maxArrayRank := by decide
  obtain ⟨own, ranked⟩ := TemplateContext.exists_array start.tycons bounded
  let session : Session := { start with interner := grown }
  have run : Run start session := run_intern interned
  have known : session.interner.lookup? name = some "get_Item" :=
    (created.fresh.interner.tryIntern interned).lookup?_of_get? (Interner.get?_of_tryIntern interned)
  let elem : Ty := .var 0 ⟨.empty, 0⟩
  have isArray : session.tycons.IsArray 4 (.app 1 own [elem] .withNull) :=
    ⟨_, _, _, _, own, rfl, ranked, TyconRef.same_refl own⟩
  have accepted : session.tycons.Accepts "get_Item"
      (.app 1 own [elem] .withNull :: List.replicate 4 elem) (some elem) :=
    .readArray isArray (by decide) List.length_replicate
  let silent : WitnessRequest :=
    ⟨name, .app 1 own [elem] .withNull :: List.replicate 4 elem, none⟩
  have refused : ¬ ∃ witness,
      session.tycons.resolveBuiltin session.interner silent = .ok witness := by
    rw [WellKnownTycons.resolveBuiltin_of_known silent known]
    exact nofun
  refine ⟨start, session, own, name, elem, elem, created, run, ranked, known, ?_, ?_⟩
  · exact (resolveBuiltin_exact created run _).1.mpr ⟨_, known, accepted⟩
  · have outcome := (resolveBuiltin_exact created run silent).2.resolve_left refused
    rwa [known, Option.getD_some] at outcome

end Session

end TypeEnv
