import TypeEnv.Enumerated
import TypeEnv.Failure
import TypeEnv.Tycon.Named
import TypeEnv.Ty.Basic

/-!
Nominal tuples. The host runtime has tuple types of one to eight arguments. A longer source tuple is
an 8-ary nominal tuple that holds seven elements and, in its eighth argument, the nominal tuple of
the remaining ones: `(a, b, c, d, e, f, g, h, i)` is `Tuple8<a, b, c, d, e, f, g, Tuple2<h, i>>`.
-/

namespace TypeEnv

/-- The nominal tuple constructors; position `i` holds the one with `i + 1` arguments. -/
structure TupleTycons where
  references : Table (Fin maxTuple) TyconRef
  values : Table (Fin maxTuple) TyconRef

namespace TupleTycons

def family (tuples : TupleTycons) : TupleKind → Table (Fin maxTuple) TyconRef
  | .reference => tuples.references
  | .value => tuples.values

def tycon (tuples : TupleTycons) (kind : TupleKind) (arity : Nat) : Except Breach TyconRef :=
  if h : 1 ≤ arity ∧ arity ≤ maxTuple then
    .ok ((tuples.family kind).get ⟨arity - 1, by omega⟩)
  else
    .error (.tupleArity arity)

def arityIn (constructors : Table (Fin maxTuple) TyconRef) (tycon : TyconRef) : Option Nat :=
  (constructors.entries.findIdx? fun candidate => candidate.Same tycon).map (· + 1)

def classify (tuples : TupleTycons) (tycon : TyconRef) : Option (TupleKind × Nat) :=
  match arityIn tuples.references tycon with
  | some arity => some (.reference, arity)
  | none => (arityIn tuples.values tycon).map fun arity => (.value, arity)

def isTuple (tuples : TupleTycons) (tycon : TyconRef) : Bool := (tuples.classify tycon).isSome

def encode (tuples : TupleTycons) (node : NodeId) (kind : TupleKind) : List Ty → Except Breach Ty
  | [] => .error .emptyTuple
  | a :: b :: c :: d :: e :: f :: g :: h :: rest => do
    let nested ← encode tuples node kind (h :: rest)
    let widest ← tuples.tycon kind maxTuple
    return .app node widest [a, b, c, d, e, f, g, nested] .withoutNull
  | elems => do
    let exact ← tuples.tycon kind elems.length
    return .app node exact elems .withoutNull
termination_by structural elems => elems

mutual

/-- The elements of the source tuple with these nominal arguments. An eighth argument that continues
the tuple is replaced by its elements; any other is an element itself. There are no source tuples of
fewer than two elements. -/
def elements (tuples : TupleTycons) (kind : TupleKind) : List Ty → Option (List Ty)
  | [] => none
  | [_] => none
  | [a, b, c, d, e, f, g, slot] =>
    some ([a, b, c, d, e, f, g] ++ (tuples.continuation kind slot).getD [slot])
  | args => some args
termination_by structural args => args

/-- The elements in an eighth argument that continues a tuple of this kind: a nominal tuple of one
argument, one that has a source form, or a source tuple. -/
def continuation (tuples : TupleTycons) (kind : TupleKind) : Ty → Option (List Ty)
  | .app _ tycon args _ =>
    match tuples.classify tycon with
    | none => none
    | some (found, arity) =>
      if found ≠ kind then none
      else if arity = 1 then some args
      else tuples.elements kind args
  | .tuple _ found elems => if found = kind then some elems else none
  | .fn .. => none
  | .var .. => none
termination_by structural slot => slot

end

def decode (tuples : TupleTycons) (node : NodeId) (kind : TupleKind) (args : List Ty) :
    Option Ty :=
  (tuples.elements kind args).map (.tuple node kind)

def decodeApp (tuples : TupleTycons) (node : NodeId) (tycon : TyconRef) (args : List Ty)
    (nullness : Nullness) : Ty :=
  match tuples.classify tycon with
  | none => .app node tycon args nullness
  | some (kind, _) => (tuples.decode node kind args).getD (.app node tycon args nullness)

mutual

/-- The type with every nominal tuple decoded, from the leaves up. All nodes but type parameters are
made anew. -/
def decodeDeep (tuples : TupleTycons) (node : NodeId) : Ty → Ty
  | .app _ tycon args nullness =>
    tuples.decodeApp node tycon (tuples.decodeAll node args) nullness
  | .fn _ domain range nullness =>
    .fn node (tuples.decodeDeep node domain) (tuples.decodeDeep node range) nullness
  | .tuple _ kind elems => .tuple node kind (tuples.decodeAll node elems)
  | .var old param => .var old param
termination_by structural ty => ty

def decodeAll (tuples : TupleTycons) (node : NodeId) : List Ty → List Ty
  | [] => []
  | ty :: rest => tuples.decodeDeep node ty :: tuples.decodeAll node rest
termination_by structural tys => tys

end

theorem decodeAll_eq_map (tuples : TupleTycons) (node : NodeId) (tys : List Ty) :
    tuples.decodeAll node tys = tys.map (tuples.decodeDeep node) := by
  induction tys with
  | nil => rfl
  | cons ty rest ih => simp [decodeAll, ih]

end TupleTycons

end TypeEnv
