import TypeEnv.Attribute.Basic

namespace TypeEnv

/-- The marker attributes that the compiler may define itself. -/
def embeddableAttributes : List String :=
  ["System.Runtime.CompilerServices.IsReadOnlyAttribute",
   "System.Runtime.CompilerServices.IsByRefLikeAttribute",
   "System.Runtime.CompilerServices.IsUnmanagedAttribute",
   "System.Runtime.CompilerServices.NullableAttribute",
   "System.Runtime.CompilerServices.NullableContextAttribute",
   "System.Runtime.CompilerServices.CompilerFeatureRequiredAttribute",
   "System.Diagnostics.CodeAnalysis.DynamicDependencyAttribute"]

def embeddedSpec (path : NamespacePath) (name : Name) : TypeSpec where
  path := path
  name := name
  kind := .attribute
  access := .internal
  flags := { isSealed := true, isEmbedded := true }

/-- Descriptions by the name of the full attribute name, oldest first. -/
structure AttributeCatalogue where
  found : List (Name × AttributeInfo) := []
  embedded : List (Name × AttributeInfo) := []
  deriving DecidableEq

namespace AttributeCatalogue

/-- The description of a publicly defined attribute, fixed at the first look-up. When no unit provides
the attribute then, its reference is deferred. -/
def find (catalogue : AttributeCatalogue) (resolver : Resolver) (store : UnitStore)
    (full : String) : Interning (AttributeInfo × AttributeCatalogue) := do
  let key ← Interner.intern full
  match catalogue.found.lookup key with
  | some info => return (info, catalogue)
  | none =>
    let (path, name) ← Interner.internTypeName full
    let unit := resolver.resolveOrDefer store (← get) path name true
    let info := AttributeInfo.inUnit unit path name
    return (info, { catalogue with found := catalogue.found ++ [(key, info)] })

def find? (resolver : Resolver) (store : UnitStore) (full : String) :
    Interning (Option AttributeInfo) := do
  let (path, name) ← Interner.internTypeName full
  return (resolver.resolve store path name true).map fun unit => .inUnit (.found unit) path name

structure Embedding where
  info : AttributeInfo
  catalogue : AttributeCatalogue
  units : UnitStore

/-- The attribute embedded before, else the one that a unit defines publicly, else a new definition
in `host` if the attribute is embeddable. Without a `host` nothing is embedded. -/
def findOrEmbed (catalogue : AttributeCatalogue) (resolver : Resolver) (store : UnitStore)
    (host : Option CompilationUnit) (full : String) :
    Interning (Except SessionError Embedding) := do
  let key ← Interner.intern full
  match catalogue.embedded.lookup key with
  | some info => return .ok ⟨info, catalogue, store⟩
  | none =>
    match ← find? resolver store full, host with
    | some info, _ => return .ok ⟨info, catalogue, store⟩
    | none, none => return .error (.notEmbeddable full)
    | none, some host =>
      if full ∈ embeddableAttributes then
        let (path, name) ← Interner.internTypeName full
        let (definition, units) := store.define host.id (embeddedSpec path name)
        let info := AttributeInfo.embedded definition path name
        let embedded := catalogue.embedded ++ [(key, info)]
        return .ok ⟨info, { catalogue with embedded }, units⟩
      else
        return .error (.notEmbeddable full)

def embeddedTypes (catalogue : AttributeCatalogue) (store : UnitStore) : List TypeDef :=
  (catalogue.embedded.filterMap fun entry => entry.2.tycon.definition? store).mergeSort
    fun first second => first.stamp.order ≤ second.stamp.order

end AttributeCatalogue

end TypeEnv
