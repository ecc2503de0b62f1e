import TypeEnv.Unit.Resolver

/-!
References to type constructors. A reference holds a definition, or says which unit defines the type
under which path and name; the unit is asked each time the reference is followed, so a reference may
be older than the definition. References are compared by unit, path and name, whatever they lead to.
-/

namespace TypeEnv

inductive TyconRef where
  /-- the definition itself -/
  | direct (definition : TypeDef)
  /-- whatever the unit defines under the path and the name -/
  | named (unit : UnitRef) (path : NamespacePath) (name : Name)
  deriving DecidableEq

namespace TyconRef

def inUnit (unit : CompilationUnit) (path : NamespacePath) (name : Name) : TyconRef :=
  .named (.found unit) path name

def name : TyconRef → Name
  | .direct definition => definition.name
  | .named _ _ name => name

def path : TyconRef → NamespacePath
  | .direct definition => definition.path
  | .named _ path _ => path

def unitId? : TyconRef → Option UnitId
  | .direct definition => some definition.unit
  | .named unit _ _ => unit.unit?.map CompilationUnit.id

def isDeferred (tycon : TyconRef) : Bool := tycon.unitId?.isNone

/-- What a reference says: unit, path and name, which is also what it is hashed by. No unit stands for
any unit that was not found. -/
structure Key where
  unit : Option UnitId
  path : NamespacePath
  name : Name
  deriving DecidableEq

def key (tycon : TyconRef) : Key := ⟨tycon.unitId?, tycon.path, tycon.name⟩

def shareDefinition : (first second : TyconRef) → Bool
  | .direct first, .direct second => first == second
  | _, _ => false

/-- Two references to one type. References that hold one definition need no comparison; any others
are compared part by part. -/
def Same (first second : TyconRef) : Prop :=
  first.shareDefinition second ∨
    first.name = second.name ∧ first.path = second.path ∧ first.unitId? = second.unitId?

instance (first second : TyconRef) : Decidable (first.Same second) :=
  inferInstanceAs (Decidable (_ ∨ _))

theorem eq_of_shareDefinition {first second : TyconRef}
    (shared : first.shareDefinition second = true) : first = second := by
  cases first <;> cases second <;> simp_all [shareDefinition]

theorem same_iff (first second : TyconRef) : first.Same second ↔ first.key = second.key := by
  constructor
  · rintro (shared | ⟨name, path, unit⟩)
    · rw [eq_of_shareDefinition shared]
    · simp only [key, name, path, unit]
  · intro keys
    simp only [key, Key.mk.injEq] at keys
    exact Or.inr ⟨keys.2.2, keys.2.1, keys.1⟩

def definition? (tycon : TyconRef) (store : UnitStore) : Option TypeDef :=
  match tycon with
  | .direct definition => some definition
  | .named unit path name => unit.unit?.bind fun unit => store.lookup unit.id path name

def deref (tycon : TyconRef) (store : UnitStore) (interner : Interner) :
    Except SessionError TypeDef :=
  match tycon with
  | .direct definition => .ok definition
  | .named ref path name => do
    let unit ← ref.force
    match store.lookup unit.id path name with
    | some definition => return definition
    | none => throw (.typeNotFound (path.qualify name interner) (interner.text unit.name))

def canDeref (tycon : TyconRef) (store : UnitStore) : Bool := (tycon.definition? store).isSome

def stamp? (tycon : TyconRef) (store : UnitStore) : Option Stamp :=
  (tycon.definition? store).map TypeDef.stamp

def display (tycon : TyconRef) (interner : Interner) : String :=
  tycon.path.qualify tycon.name interner

end TyconRef

end TypeEnv
