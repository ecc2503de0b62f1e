import TypeEnv.Primitive.Types
import TypeEnv.Witness.Operator

namespace TypeEnv

structure WitnessRequest where
  traitName : Name
  operands : List Ty
  result : Option Ty

def WitnessRequest.shape (request : WitnessRequest) : WitnessShape :=
  ⟨request.operands.length, request.result.isSome⟩

structure Witness where
  intrinsic : IntrinsicId
  typeArgs : List Ty
  deriving DecidableEq

namespace WellKnownTycons

def isStringTy (tycons : WellKnownTycons) (ty : Ty) : Bool := ty.isAppOf (tycons.corePrim .string)

def isObjTy (tycons : WellKnownTycons) (ty : Ty) : Bool := ty.isAppOf (tycons.corePrim .obj)

def isUnitTy (tycons : WellKnownTycons) (ty : Ty) : Bool := ty.isAppOf (tycons.corePrim .unit)

def array? (tycons : WellKnownTycons) : Ty → Option (Nat × Ty)
  | .app _ tycon [elem] _ => (tycons.arrayRank? tycon).map fun rank => (rank, elem)
  | _ => none

/-- Reading an element: of a string by one index, of an array by as many as its rank. -/
def getItem? (tycons : WellKnownTycons) (target : Ty) (indices : List Ty) : Option Witness :=
  if tycons.isStringTy target && indices.length == 1 then
    some ⟨.getString, []⟩
  else do
    let (rank, elem) ← tycons.array? target
    let id ← WitnessFamily.getArray? rank
    if indices.length = rank then some ⟨id, [elem]⟩ else none

/-- Writing an element of an array: the new value follows the indices. -/
def setItem? (tycons : WellKnownTycons) (target : Ty) (rest : List Ty) : Option Witness := do
  let (rank, elem) ← tycons.array? target
  let id ← WitnessFamily.setArray? rank
  if rest.length = rank + 1 then some ⟨id, [elem]⟩ else none

def witness? (tycons : WellKnownTycons) (family : WitnessFamily) (operands : List Ty)
    (result : Option Ty) : Option Witness :=
  match family, operands, result with
  | .binary id, [lhs, rhs], some ret => some ⟨id, [lhs, rhs, ret]⟩
  | .relational id, [lhs, rhs], _ => some ⟨id, [lhs, rhs]⟩
  | .unary id, [operand], some ret => some ⟨id, [operand, ret]⟩
  | .constant id, [], some ret => some ⟨id, [ret]⟩
  | .mathSame id, [operand], _ => some ⟨id, [operand]⟩
  | .mathMapped id, [operand], some ret => some ⟨id, [operand, ret]⟩
  | .atan2, [y, _], some ret => some ⟨.atan2, [y, ret]⟩
  | .pow, [base, exponent], _ => some ⟨.pow, [base, exponent]⟩
  | .sign, [operand], _ => some ⟨.sign, [operand]⟩
  | .getItem, target :: indices, some _ => tycons.getItem? target indices
  | .setItem, target :: rest, _ => tycons.setItem? target rest
  | _, _, _ => none

end WellKnownTycons

/-- The witness for a request. A trait name that the interner never handed out is reported by its
parts. -/
def WellKnownTycons.resolveBuiltin (tycons : WellKnownTycons) (interner : Interner)
    (request : WitnessRequest) : Except SessionError Witness :=
  match interner.lookup? request.traitName with
  | none => .error (.unsupportedWitness request.traitName.describe request.shape)
  | some traitName =>
    let witness := (WitnessFamily.ofTrait? traitName).bind fun family =>
      tycons.witness? family request.operands request.result
    match witness with
    | some witness => .ok witness
    | none => .error (.unsupportedWitness traitName request.shape)

end TypeEnv
