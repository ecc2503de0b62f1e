import TypeEnv.Unit.Basic

namespace TypeEnv

/-- A resolver answers from the definitions made so far. With `publicOnly` it is asked for a unit
that defines the type publicly. -/
structure Resolver where
  resolve : UnitStore → NamespacePath → Name → (publicOnly : Bool) → Option CompilationUnit

namespace Resolver

def table (units : List CompilationUnit) : Resolver where
  resolve store path name publicOnly :=
    units.find? fun unit => store.defines unit.id path name publicOnly

def always (unit : CompilationUnit) : Resolver where
  resolve _ _ _ _ := some unit

end Resolver

def notFoundText (path : NamespacePath) (name : Name) (interner : Interner) : String :=
  path.qualify name interner ++ " not found"

def UnitRef.missing (path : NamespacePath) (name : Name) (interner : Interner) : UnitRef :=
  .deferred ⟨path, name, notFoundText path name interner⟩

def Resolver.resolveOrDefer (resolver : Resolver) (store : UnitStore) (interner : Interner)
    (path : NamespacePath) (name : Name) (publicOnly : Bool) : UnitRef :=
  match resolver.resolve store path name publicOnly with
  | some unit => .found unit
  | none => .missing path name interner

end TypeEnv
