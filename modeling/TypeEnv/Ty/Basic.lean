import TypeEnv.Tycon.Ref

/-!
Types. Nodes of a type are shared, and every operation that makes nodes gives them a number of its
own. Two handles are the same handle when they agree in everything, node numbers included: that is
`=`. Two types are alike when they have one `Shape`: the tree without node numbers, with constructors
replaced by what they are compared by.
-/

namespace TypeEnv

inductive Nullness where
  /-- not tracked -/
  | ambivalent
  | withoutNull
  | withNull
  deriving DecidableEq

def Nullness.label : Nullness → String
  | .ambivalent => "Ambivalent"
  | .withoutNull => "WithoutNull"
  | .withNull => "WithNull"

inductive TupleKind where
  /-- on the heap -/
  | reference
  /-- a struct -/
  | value
  deriving DecidableEq

def TupleKind.label : TupleKind → String
  | .reference => "Ref"
  | .value => "Struct"

structure TyParam where
  name : Name
  index : Nat
  deriving DecidableEq

abbrev NodeId := Nat

inductive Ty where
  | app (node : NodeId) (tycon : TyconRef) (args : List Ty) (nullness : Nullness)
  | fn (node : NodeId) (domain range : Ty) (nullness : Nullness)
  | tuple (node : NodeId) (kind : TupleKind) (elems : List Ty)
  | var (node : NodeId) (param : TyParam)

inductive Shape where
  | app (tycon : TyconRef.Key) (args : List Shape) (nullness : Nullness)
  | fn (domain range : Shape) (nullness : Nullness)
  | tuple (kind : TupleKind) (elems : List Shape)
  | var (param : TyParam)

mutual

protected def Ty.decEq : (first second : Ty) → Decidable (first = second)
  | .app n c as x, .app m d bs y =>
    if h : n = m ∧ c = d ∧ x = y then
      match Ty.decEqList as bs with
      | isTrue e => isTrue (by rw [h.1, h.2.1, h.2.2, e])
      | isFalse e => isFalse (by intro k; cases k; exact e rfl)
    else isFalse (by intro k; cases k; exact h ⟨rfl, rfl, rfl⟩)
  | .fn n a b x, .fn m c d y =>
    if h : n = m ∧ x = y then
      match Ty.decEq a c, Ty.decEq b d with
      | isTrue e, isTrue f => isTrue (by rw [h.1, h.2, e, f])
      | isFalse e, _ => isFalse (by intro k; cases k; exact e rfl)
      | _, isFalse e => isFalse (by intro k; cases k; exact e rfl)
    else isFalse (by intro k; cases k; exact h ⟨rfl, rfl⟩)
  | .tuple n x as, .tuple m y bs =>
    if h : n = m ∧ x = y then
      match Ty.decEqList as bs with
      | isTrue e => isTrue (by rw [h.1, h.2, e])
      | isFalse e => isFalse (by intro k; cases k; exact e rfl)
    else isFalse (by intro k; cases k; exact h ⟨rfl, rfl⟩)
  | .var n p, .var m q =>
    if h : n = m ∧ p = q then isTrue (by rw [h.1, h.2])
    else isFalse (by intro k; cases k; exact h ⟨rfl, rfl⟩)
  | .app .., .fn .. | .app .., .tuple .. | .app .., .var .. | .fn .., .app .. | .fn .., .tuple ..
  | .fn .., .var .. | .tuple .., .app .. | .tuple .., .fn .. | .tuple .., .var .. | .var .., .app ..
  | .var .., .fn .. | .var .., .tuple .. => isFalse (by intro k; cases k)
termination_by structural first => first

protected def Ty.decEqList : (first second : List Ty) → Decidable (first = second)
  | [], [] => isTrue rfl
  | a :: as, b :: bs =>
    match Ty.decEq a b, Ty.decEqList as bs with
    | isTrue e, isTrue f => isTrue (by rw [e, f])
    | isFalse e, _ => isFalse (by intro k; cases k; exact e rfl)
    | _, isFalse e => isFalse (by intro k; cases k; exact e rfl)
  | [], _ :: _ | _ :: _, [] => isFalse (by intro k; cases k)
termination_by structural first => first

end

instance : DecidableEq Ty := Ty.decEq

mutual

protected def Shape.decEq : (first second : Shape) → Decidable (first = second)
  | .app c as x, .app d bs y =>
    if h : c = d ∧ x = y then
      match Shape.decEqList as bs with
      | isTrue e => isTrue (by rw [h.1, h.2, e])
      | isFalse e => isFalse (by intro k; cases k; exact e rfl)
    else isFalse (by intro k; cases k; exact h ⟨rfl, rfl⟩)
  | .fn a b x, .fn c d y =>
    if h : x = y then
      match Shape.decEq a c, Shape.decEq b d with
      | isTrue e, isTrue f => isTrue (by rw [h, e, f])
      | isFalse e, _ => isFalse (by intro k; cases k; exact e rfl)
      | _, isFalse e => isFalse (by intro k; cases k; exact e rfl)
    else isFalse (by intro k; cases k; exact h rfl)
  | .tuple x as, .tuple y bs =>
    if h : x = y then
      match Shape.decEqList as bs with
      | isTrue e => isTrue (by rw [h, e])
      | isFalse e => isFalse (by intro k; cases k; exact e rfl)
    else isFalse (by intro k; cases k; exact h rfl)
  | .var p, .var q =>
    if h : p = q then isTrue (by rw [h]) else isFalse (by intro k; cases k; exact h rfl)
  | .app .., .fn .. | .app .., .tuple .. | .app .., .var .. | .fn .., .app .. | .fn .., .tuple ..
  | .fn .., .var .. | .tuple .., .app .. | .tuple .., .fn .. | .tuple .., .var .. | .var .., .app ..
  | .var .., .fn .. | .var .., .tuple .. => isFalse (by intro k; cases k)
termination_by structural first => first

protected def Shape.decEqList : (first second : List Shape) → Decidable (first = second)
  | [], [] => isTrue rfl
  | a :: as, b :: bs =>
    match Shape.decEq a b, Shape.decEqList as bs with
    | isTrue e, isTrue f => isTrue (by rw [e, f])
    | isFalse e, _ => isFalse (by intro k; cases k; exact e rfl)
    | _, isFalse e => isFalse (by intro k; cases k; exact e rfl)
  | [], _ :: _ | _ :: _, [] => isFalse (by intro k; cases k)
termination_by structural first => first

end

instance : DecidableEq Shape := Shape.decEq

namespace Ty

mutual

def shape : Ty → Shape
  | .app _ tycon args nullness => .app tycon.key (shapes args) nullness
  | .fn _ domain range nullness => .fn domain.shape range.shape nullness
  | .tuple _ kind elems => .tuple kind (shapes elems)
  | .var _ param => .var param
termination_by structural ty => ty

def shapes : List Ty → List Shape
  | [] => []
  | ty :: rest => ty.shape :: shapes rest
termination_by structural tys => tys

end

theorem shapes_eq_map (tys : List Ty) : shapes tys = tys.map shape := by
  induction tys with
  | nil => rfl
  | cons ty rest ih => simp [shapes, ih]

/-- Structural equality: node numbers are not looked at. -/
def Alike (first second : Ty) : Prop := first.shape = second.shape

instance (first second : Ty) : Decidable (first.Alike second) :=
  inferInstanceAs (Decidable (_ = _))

mutual

/-- A property of all types follows from its passage from the parts of a node to the node. -/
theorem induction {motive : Ty → Prop}
    (app : ∀ node tycon args nullness, (∀ arg ∈ args, motive arg) →
      motive (.app node tycon args nullness))
    (fn : ∀ node domain range nullness, motive domain → motive range →
      motive (.fn node domain range nullness))
    (tuple : ∀ node kind elems, (∀ elem ∈ elems, motive elem) → motive (.tuple node kind elems))
    (var : ∀ node param, motive (.var node param)) : ∀ ty, motive ty
  | .app node tycon args nullness =>
    app node tycon args nullness (inductionList app fn tuple var args)
  | .fn node domain range nullness =>
    fn node domain range nullness (induction app fn tuple var domain)
      (induction app fn tuple var range)
  | .tuple node kind elems => tuple node kind elems (inductionList app fn tuple var elems)
  | .var node param => var node param
termination_by structural ty => ty

private theorem inductionList {motive : Ty → Prop}
    (app : ∀ node tycon args nullness, (∀ arg ∈ args, motive arg) →
      motive (.app node tycon args nullness))
    (fn : ∀ node domain range nullness, motive domain → motive range →
      motive (.fn node domain range nullness))
    (tuple : ∀ node kind elems, (∀ elem ∈ elems, motive elem) → motive (.tuple node kind elems))
    (var : ∀ node param, motive (.var node param)) : ∀ tys : List Ty, ∀ ty ∈ tys, motive ty
  | [], _, member => nomatch member
  | first :: rest, ty, member =>
    match List.mem_cons.mp member with
    | .inl same => same ▸ induction app fn tuple var first
    | .inr later => inductionList app fn tuple var rest ty later
termination_by structural tys => tys

end

def nullness : Ty → Nullness
  | .app _ _ _ nullness => nullness
  | .fn _ _ _ nullness => nullness
  | .tuple .. => .ambivalent
  | .var .. => .ambivalent

def app? : Ty → Option (TyconRef × List Ty)
  | .app _ tycon args _ => some (tycon, args)
  | _ => none

def isApp (ty : Ty) : Bool := ty.app?.isSome

def isNullaryApp : Ty → Bool
  | .app _ _ [] _ => true
  | _ => false

def isAppOf (ty : Ty) (tycon : TyconRef) : Bool :=
  match ty with
  | .app _ head _ _ => head.Same tycon
  | _ => false

def isFn : Ty → Bool
  | .fn .. => true
  | _ => false

def tuple? : Ty → Option (TupleKind × List Ty)
  | .tuple _ kind elems => some (kind, elems)
  | _ => none

mutual

def anyNode (test : Ty → Bool) : Ty → Bool
  | .app node tycon args nullness =>
    test (.app node tycon args nullness) || anyNodes test args
  | .fn node domain range nullness =>
    test (.fn node domain range nullness) || domain.anyNode test || range.anyNode test
  | .tuple node kind elems => test (.tuple node kind elems) || anyNodes test elems
  | .var node param => test (.var node param)
termination_by structural ty => ty

def anyNodes (test : Ty → Bool) : List Ty → Bool
  | [] => false
  | ty :: rest => ty.anyNode test || anyNodes test rest
termination_by structural tys => tys

end

end Ty

end TypeEnv
