import TypeEnv.Proofs.SessionRun
import TypeEnv.Proofs.Substitution
import TypeEnv.Witness.Basic

/-!
Built-in witnesses are well typed. The type that a trait member has for its operands and its result
is said here without the families of the matcher and without the table of intrinsics; whatever
request is accepted, the intrinsic that serves as the witness has that type at its type arguments.
-/

namespace TypeEnv

namespace TraitMember

def binary : List String :=
  ["op_Addition", "op_Subtraction", "op_Multiply", "op_Division", "op_Modulus", "op_BitwiseAnd",
   "op_BitwiseOr", "op_ExclusiveOr", "op_LeftShift", "op_RightShift", "op_CheckedAddition",
   "op_CheckedSubtraction", "op_CheckedMultiply"]

def relational : List String :=
  ["op_Equality", "op_Inequality", "op_LessThan", "op_GreaterThan", "op_LessThanOrEqual",
   "op_GreaterThanOrEqual"]

def unary : List String :=
  ["op_UnaryNegation", "op_CheckedUnaryNegation", "op_UnaryPlus", "op_LogicalNot",
   "op_OnesComplement"]

def conversion : List String := ["op_Explicit", "op_CheckedExplicit", "op_Implicit"]

def constant : List String := ["get_Zero", "get_One"]

def sameType : List String :=
  ["Abs", "Acos", "Asin", "Atan", "Ceiling", "Cos", "Cosh", "Exp", "Floor", "Log", "Log10",
   "Round", "Sin", "Sinh", "Tan", "Tanh", "Truncate"]

end TraitMember

inductive MemberTy (tycons : WellKnownTycons) (prims : PrimitiveTypes) :
    (member : String) → (operands : List Ty) → (result : Option Ty) → (expected : Ty) → Prop where
  | binary {member : String} {lhs rhs result : Ty} (named : member ∈ TraitMember.binary) :
    MemberTy tycons prims member [lhs, rhs] (some result) (.curried [lhs, rhs] result)
  | relational {member : String} {lhs rhs : Ty} {result : Option Ty}
    (named : member ∈ TraitMember.relational) :
    MemberTy tycons prims member [lhs, rhs] result (.curried [lhs, rhs] (prims.get .bool))
  | mapped {member : String} {operand result : Ty}
    (named : member ∈ TraitMember.unary ∨ member ∈ TraitMember.conversion ∨ member = "Sqrt") :
    MemberTy tycons prims member [operand] (some result) (.curried [operand] result)
  | constant {member : String} {result : Ty} (named : member ∈ TraitMember.constant) :
    MemberTy tycons prims member [] (some result) (.curried [prims.get .unit] result)
  | sameType {member : String} {operand : Ty} {result : Option Ty}
    (named : member ∈ TraitMember.sameType) :
    MemberTy tycons prims member [operand] result (.curried [operand] operand)
  | atan2 {y x result : Ty} :
    MemberTy tycons prims "Atan2" [y, x] (some result) (.curried [y, y] result)
  | pow {base exponent : Ty} {result : Option Ty} :
    MemberTy tycons prims "Pow" [base, exponent] result (.curried [base, exponent] base)
  | sign {operand : Ty} {result : Option Ty} :
    MemberTy tycons prims "Sign" [operand] result (.curried [operand] (prims.get .int32))
  | stringItem {target index result : Ty} (isString : target.isAppOf (tycons.corePrim .string)) :
    MemberTy tycons prims "get_Item" [target, index] (some result)
      (.curried [prims.get .string, prims.get .int32] (prims.get .char))
  | getItem {node : NodeId} {head tycon : TyconRef} {elem result : Ty} {nullness : Nullness}
    {indices : List Ty} (ranked : tycons.array indices.length = .ok tycon)
    (isArray : tycon.Same head) :
    MemberTy tycons prims "get_Item" (.app node head [elem] nullness :: indices) (some result)
      (.curried (.app 0 tycon [elem] .withoutNull ::
        List.replicate indices.length (prims.get .int32)) elem)
  | setItem {node : NodeId} {head tycon : TyconRef} {elem value : Ty} {nullness : Nullness}
    {indices : List Ty} {result : Option Ty} (ranked : tycons.array indices.length = .ok tycon)
    (isArray : tycon.Same head) :
    MemberTy tycons prims "set_Item" (.app node head [elem] nullness :: (indices ++ [value])) result
      (.curried (.app 0 tycon [elem] .withoutNull ::
        (List.replicate indices.length (prims.get .int32) ++ [elem])) (prims.get .unit))

namespace Signature

def readArray (rank : Nat) : Signature :=
  curried (.array rank .t :: List.replicate rank .int) .t

def writeArray (rank : Nat) : Signature :=
  curried (.array rank .t :: (List.replicate rank .int ++ [.t])) .unit

end Signature

namespace WitnessFamily

variable {member : String} {family : WitnessFamily} {id : IntrinsicId} {rank : Nat}

/-- The member is one of the family's, and the intrinsic has the signature that the family needs. -/
inductive Serves : WitnessFamily → String → Prop where
  | binary {id : IntrinsicId} {member : String} (named : member ∈ TraitMember.binary)
    (typars : id.spec.typars.length = 3) (signature : id.spec.signature = .binary) :
    Serves (.binary id) member
  | relational {id : IntrinsicId} {member : String} (named : member ∈ TraitMember.relational)
    (typars : id.spec.typars.length = 2) (signature : id.spec.signature = .relation) :
    Serves (.relational id) member
  | unary {id : IntrinsicId} {member : String}
    (named : member ∈ TraitMember.unary ∨ member ∈ TraitMember.conversion)
    (typars : id.spec.typars.length = 2) (signature : id.spec.signature = .unary) :
    Serves (.unary id) member
  | constant {id : IntrinsicId} {member : String} (named : member ∈ TraitMember.constant)
    (typars : id.spec.typars.length = 1) (signature : id.spec.signature = .nullary) :
    Serves (.constant id) member
  | mathSame {id : IntrinsicId} {member : String} (named : member ∈ TraitMember.sameType)
    (typars : id.spec.typars.length = 1) (signature : id.spec.signature = .endo) :
    Serves (.mathSame id) member
  | mathMapped {id : IntrinsicId} (typars : id.spec.typars.length = 2)
    (signature : id.spec.signature = .unary) : Serves (.mathMapped id) "Sqrt"
  | atan2 : Serves .atan2 "Atan2"
  | pow : Serves .pow "Pow"
  | sign : Serves .sign "Sign"
  | getItem : Serves .getItem "get_Item"
  | setItem : Serves .setItem "set_Item"

theorem serves_of_ofTrait? (found : ofTrait? member = some family) : family.Serves member := by
  unfold ofTrait? at found
  split at found
  -- The members come family by family; what is left to look up is one row of the table for each.
  iterate 13 next => cases found; exact .binary (by decide) rfl rfl
  iterate 6 next => cases found; exact .relational (by decide) rfl rfl
  iterate 8 next => cases found; exact .unary (by decide) rfl rfl
  iterate 2 next => cases found; exact .constant (by decide) rfl rfl
  iterate 17 next => cases found; exact .mathSame (by decide) rfl rfl
  next => cases found; exact .mathMapped rfl rfl
  next => cases found; exact .atan2
  next => cases found; exact .pow
  next => cases found; exact .sign
  next => cases found; exact .getItem
  next => cases found; exact .setItem
  next => cases found

theorem spec_of_getArray? (found : getArray? rank = some id) :
    id.spec.typars.length = 1 ∧ id.spec.signature = .readArray rank := by
  unfold getArray? at found
  split at found
  iterate 4 next => cases found; exact ⟨rfl, rfl⟩
  next => cases found

theorem spec_of_setArray? (found : setArray? rank = some id) :
    id.spec.typars.length = 1 ∧ id.spec.signature = .writeArray rank := by
  unfold setArray? at found
  split at found
  iterate 4 next => cases found; exact ⟨rfl, rfl⟩
  next => cases found

end WitnessFamily

theorem IntrinsicId.argCount_spec (id : IntrinsicId) :
    id.spec.signature.argCount < UInt32.size := by
  have all : ∀ spec ∈ IntrinsicSpec.rows, spec.signature.argCount < UInt32.size := by
    decide +kernel
  exact all id.spec id.spec_mem

theorem WellKnownTycons.array_of_arrayRank? {tycons : WellKnownTycons} {head : TyconRef}
    {rank : Nat} (ranked : tycons.arrayRank? head = some rank) :
    ∃ tycon, tycons.array rank = .ok tycon ∧ tycon.Same head := by
  rcases Option.map_eq_some_iff.mp ranked with ⟨place, found, rfl⟩
  rcases List.findIdx?_eq_some_iff_getElem.mp found with ⟨bound, same, _⟩
  have inside : place < maxArrayRank := tycons.arrays.length_entries_fin ▸ bound
  refine ⟨tycons.arrays.entries[place], ?_, of_decide_eq_true same⟩
  exact dif_pos ⟨Nat.le_add_left 1 place, inside⟩

/-- The description of the witness has one parameter for each type argument and one argument for
each operand, and it stands for the type at the type arguments. -/
structure Witness.Fits (witness : Witness) (tycons : WellKnownTycons) (prims : PrimitiveTypes)
    (operands : List Ty) (expected : Ty) : Prop where
  typars : witness.typeArgs.length = witness.intrinsic.spec.typars.length
  arity : operands.length = witness.intrinsic.spec.signature.argCount
  stands : witness.intrinsic.spec.signature.Stands ⟨tycons, prims, witness.typeArgs⟩ expected

namespace WellKnownTycons

variable {tycons : WellKnownTycons} {prims : PrimitiveTypes} {member : String}
  {family : WitnessFamily} {operands : List Ty} {result : Option Ty} {witness : Witness}

theorem fits_of_curried {id : IntrinsicId} {images domains : List Ty} {args : List Template}
    {ret : Template} {range : Ty} (typars : id.spec.typars.length = images.length)
    (signature : id.spec.signature = .curried args ret) (arity : operands.length = args.length)
    (arguments : List.Forall₂ (fun arg domain => arg.Stands ⟨tycons, prims, images⟩ domain) args
      domains)
    (returned : ret.Stands ⟨tycons, prims, images⟩ range) :
    Witness.Fits ⟨id, images⟩ tycons prims operands (.curried domains range) where
  typars := typars.symm
  arity := by rw [signature, Signature.argCount_curried, arity]
  stands := by
    rw [signature]
    exact Signature.stands_curried arguments returned

theorem exists_of_array? {target elem : Ty} {rank : Nat}
    (found : tycons.array? target = some (rank, elem)) :
    ∃ node head nullness tycon, target = .app node head [elem] nullness ∧
      tycons.array rank = .ok tycon ∧ tycon.Same head := by
  unfold array? at found
  split at found
  case h_1 node head only nullness =>
    rcases Option.map_eq_some_iff.mp found with ⟨known, ranked, pair⟩
    cases pair
    rcases array_of_arrayRank? ranked with ⟨tycon, located, same⟩
    exact ⟨node, head, nullness, tycon, rfl, located, same⟩
  case h_2 => cases found

theorem stands_access {rank : Nat} {tycon : TyconRef} (ranked : tycons.array rank = .ok tycon)
    (elem : Ty) :
    List.Forall₂ (fun (arg : Template) domain => arg.Stands ⟨tycons, prims, [elem]⟩ domain)
      (.array rank .t :: List.replicate rank .int)
      (.app 0 tycon [elem] .withoutNull :: List.replicate rank (prims.get .int32)) := by
  refine .cons (Template.stands_array ranked Template.stands_t) ?_
  rw [List.forall₂_iff_get]
  refine ⟨by rw [List.length_replicate, List.length_replicate], ?_⟩
  intro place _ _
  simp only [List.get_eq_getElem, List.getElem_replicate]
  exact Template.stands_prim .int32

theorem fits_of_getItem? {target : Ty} {indices : List Ty} {ret : Ty}
    (found : tycons.getItem? target indices = some witness) :
    ∃ expected, MemberTy tycons prims "get_Item" (target :: indices) (some ret) expected ∧
      witness.Fits tycons prims (target :: indices) expected := by
  rw [getItem?] at found
  split at found
  case isTrue reads =>
    cases found
    rw [Bool.and_eq_true, beq_iff_eq] at reads
    rcases List.length_eq_one_iff.mp reads.2 with ⟨index, rfl⟩
    refine ⟨_, .stringItem reads.1, ?_⟩
    apply fits_of_curried rfl rfl rfl ?_ (Template.stands_prim .char)
    exact .cons (Template.stands_prim .string) (.cons (Template.stands_prim .int32) .nil)
  case isFalse =>
    rcases Option.bind_eq_some_iff.mp found with ⟨⟨rank, elem⟩, array, rest⟩
    rcases Option.bind_eq_some_iff.mp rest with ⟨id, reader, counted⟩
    rcases exists_of_array? array with ⟨node, head, nullness, tycon, rfl, ranked, isArray⟩
    split at counted
    case isTrue count =>
      cases counted
      cases count
      rcases WitnessFamily.spec_of_getArray? reader with ⟨typars, signature⟩
      refine ⟨_, .getItem ranked isArray, ?_⟩
      apply fits_of_curried typars signature ?_ (stands_access ranked elem) Template.stands_t
      rw [List.length_cons, List.length_cons, List.length_replicate]
    case isFalse => cases counted

theorem fits_of_setItem? {target : Ty} {rest : List Ty}
    (found : tycons.setItem? target rest = some witness) :
    ∃ expected, MemberTy tycons prims "set_Item" (target :: rest) result expected ∧
      witness.Fits tycons prims (target :: rest) expected := by
  rcases Option.bind_eq_some_iff.mp found with ⟨⟨rank, elem⟩, array, inner⟩
  rcases Option.bind_eq_some_iff.mp inner with ⟨id, writer, counted⟩
  rcases exists_of_array? array with ⟨node, head, nullness, tycon, rfl, ranked, isArray⟩
  split at counted
  case isTrue count =>
    cases counted
    rcases List.eq_nil_or_concat' rest with rfl | ⟨indices, value, rfl⟩
    · cases count
    · rw [List.length_append, List.length_singleton, Nat.add_right_cancel_iff] at count
      cases count
      rcases WitnessFamily.spec_of_setArray? writer with ⟨typars, signature⟩
      refine ⟨_, .setItem ranked isArray, ?_⟩
      apply fits_of_curried typars signature ?_ ?_ (Template.stands_prim .unit)
      · rw [List.length_cons, List.length_cons, List.length_append, List.length_append,
          List.length_replicate, List.length_singleton, List.length_singleton]
      · have stored : List.Forall₂
            (fun (arg : Template) domain => arg.Stands ⟨tycons, prims, [elem]⟩ domain)
            [.t] [elem] := .cons Template.stands_t .nil
        exact List.rel_append (stands_access ranked elem) stored
  case isFalse => cases counted

theorem fits_of_witness? (serves : family.Serves member)
    (found : tycons.witness? family operands result = some witness) :
    ∃ expected, MemberTy tycons prims member operands result expected ∧
      witness.Fits tycons prims operands expected := by
  unfold witness? at found
  split at found
  -- One case for each family, with the operands and the result that it takes; the last is for all
  -- that fit no family.
  case h_1 =>
    cases found
    cases serves with
    | binary named typars signature =>
        refine ⟨_, .binary named, ?_⟩
        apply fits_of_curried typars signature rfl ?_ Template.stands_v
        exact .cons Template.stands_t (.cons Template.stands_u .nil)
  case h_2 =>
    cases found
    cases serves with
    | relational named typars signature =>
        refine ⟨_, .relational named, ?_⟩
        apply fits_of_curried typars signature rfl ?_ (Template.stands_prim .bool)
        exact .cons Template.stands_t (.cons Template.stands_u .nil)
  case h_3 =>
    cases found
    cases serves with
    | unary named typars signature =>
        refine ⟨_, .mapped (named.elim Or.inl fun other => Or.inr (Or.inl other)), ?_⟩
        exact fits_of_curried typars signature rfl (.cons Template.stands_t .nil) Template.stands_u
  case h_4 =>
    cases found
    cases serves with
    | constant named typars signature =>
        refine ⟨_, .constant named, ⟨typars.symm, ?_, ?_⟩⟩
        · rw [signature]
          rfl
        · rw [signature]
          exact Signature.stands_nullary _ _ _
  case h_5 =>
    cases found
    cases serves with
    | mathSame named typars signature =>
        refine ⟨_, .sameType named, ?_⟩
        exact fits_of_curried typars signature rfl (.cons Template.stands_t .nil) Template.stands_t
  case h_6 =>
    cases found
    cases serves with
    | mathMapped typars signature =>
        refine ⟨_, .mapped (Or.inr (Or.inr rfl)), ?_⟩
        exact fits_of_curried typars signature rfl (.cons Template.stands_t .nil) Template.stands_u
  case h_7 =>
    cases found
    cases serves
    refine ⟨_, .atan2, ?_⟩
    apply fits_of_curried rfl rfl rfl ?_ Template.stands_u
    exact .cons Template.stands_t (.cons Template.stands_t .nil)
  case h_8 =>
    cases found
    cases serves
    refine ⟨_, .pow, ?_⟩
    apply fits_of_curried rfl rfl rfl ?_ Template.stands_t
    exact .cons Template.stands_t (.cons Template.stands_u .nil)
  case h_9 =>
    cases found
    cases serves
    refine ⟨_, .sign, ?_⟩
    exact fits_of_curried rfl rfl rfl (.cons Template.stands_t .nil) (Template.stands_prim .int32)
  case h_10 =>
    cases serves
    exact fits_of_getItem? found
  case h_11 =>
    cases serves
    exact fits_of_setItem? found
  case h_12 => cases found

theorem fits_of_resolveBuiltin {interner : Interner} {request : WitnessRequest}
    (accepted : tycons.resolveBuiltin interner request = .ok witness) :
    ∃ member expected, interner.lookup? request.traitName = some member ∧
      MemberTy tycons prims member request.operands request.result expected ∧
      witness.Fits tycons prims request.operands expected := by
  unfold resolveBuiltin at accepted
  split at accepted
  case h_1 => cases accepted
  case h_2 member known =>
    dsimp only at accepted
    split at accepted
    case h_1 result found =>
      cases accepted
      rcases Option.bind_eq_some_iff.mp found with ⟨family, serving, matched⟩
      have serves := WitnessFamily.serves_of_ofTrait? serving
      rcases fits_of_witness? serves matched with ⟨expected, member, fits⟩
      exact ⟨_, expected, known, member, fits⟩
    case h_2 => cases accepted

end WellKnownTycons

namespace Session

variable {start session : Session} {request : WitnessRequest} {witness : Witness}

/-- The intrinsic takes as many types and as many arguments as the witness has, and its full type
becomes the expected one when the type arguments are put in for its type parameters. -/
structure WellTyped (session : Session) (witness : Witness) (operands : List Ty) (expected : Ty) :
    Prop where
  typars : witness.typeArgs.length = (session.intrinsic witness.intrinsic).typars.length
  arity : operands.length = (session.intrinsic witness.intrinsic).key.argCount.toNat
  ty : ∀ node, (Ty.subst node witness.typeArgs (session.intrinsic witness.intrinsic).ty).Alike
    expected

theorem wellTyped_of_fits {operands : List Ty} {expected : Ty}
    (made : (session.intrinsic witness.intrinsic).MadeFrom witness.intrinsic.spec session.tycons
      session.prims session.interner)
    (fits : witness.Fits session.tycons session.prims operands expected) :
    session.WellTyped witness operands expected where
  typars := fits.typars.trans made.length_typars.symm
  arity := by
    rw [made.argCount, UInt32.toNat_ofNat_of_lt' witness.intrinsic.argCount_spec]
    exact fits.arity
  ty := made.subst_alike fits.typars fits.stands

/-- Whenever a request for a witness is accepted, the witness is well typed: it has the type of the
member that was asked for. -/
theorem resolveBuiltin_wellTyped (created : start.Created) (run : Run start session)
    (accepted : session.tycons.resolveBuiltin session.interner request = .ok witness) :
    ∃ member expected, session.interner.lookup? request.traitName = some member ∧
      MemberTy session.tycons session.prims member request.operands request.result expected ∧
      session.WellTyped witness request.operands expected := by
  rcases WellKnownTycons.fits_of_resolveBuiltin accepted with
    ⟨member, expected, known, typed, fits⟩
  have made := created.fresh.intrinsic_made run witness.intrinsic
  exact ⟨member, expected, known, typed, wellTyped_of_fits made fits⟩

theorem resolveBuiltin_wellTyped_addition :
    ∃ (start session : Session) (request : WitnessRequest) (witness : Witness), start.Created ∧
      Run start session ∧
      session.tycons.resolveBuiltin session.interner request = .ok witness ∧
      ∃ member expected, session.interner.lookup? request.traitName = some member ∧
        MemberTy session.tycons session.prims member request.operands request.result expected ∧
        session.WellTyped witness request.operands expected := by
  have valid : ({} : Config).validate = .ok () := rfl
  obtain ⟨session, created, _, _⟩ := exists_created valid
  have made := created.fresh.intrinsic_made .refl .uncheckedAddition
  have named := made.described.compiledName
  let first : Ty := .var 0 ⟨.empty, 0⟩
  let second : Ty := .var 0 ⟨.empty, 1⟩
  let request : WitnessRequest :=
    ⟨(session.intrinsic .uncheckedAddition).key.compiledName, [second, first], some second⟩
  have known := created.fresh.interner.lookup?_of_get? named
  have accepted : session.tycons.resolveBuiltin session.interner request =
      .ok ⟨.additionDynamic, [second, first, second]⟩ := by
    simp only [WellKnownTycons.resolveBuiltin, request, known]
    rfl
  exact ⟨session, session, request, _, created, .refl, accepted,
    resolveBuiltin_wellTyped created .refl accepted⟩

end Session

end TypeEnv
