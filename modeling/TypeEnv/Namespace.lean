import TypeEnv.Dotted
import TypeEnv.Interner

namespace TypeEnv

structure NamespacePath where
  segments : List Name
  deriving DecidableEq

namespace NamespacePath

def root : NamespacePath := ⟨[]⟩

def size (path : NamespacePath) : Nat := path.segments.length

def isRoot (path : NamespacePath) : Bool := path.segments.isEmpty

def last? (path : NamespacePath) : Option Name := path.segments.getLast?

def child (path : NamespacePath) (segment : Name) : NamespacePath :=
  ⟨path.segments ++ [segment]⟩

def dotted (path : NamespacePath) (interner : Interner) : String :=
  Dotted.join (path.segments.map interner.text)

/-- The full name of `name` inside the namespace: the name alone in the global namespace. -/
def qualify (path : NamespacePath) (name : Name) (interner : Interner) : String :=
  if path.isRoot then interner.text name
  else path.dotted interner ++ "." ++ interner.text name

end NamespacePath

namespace Interner

/-- The path written in dotted form. The empty text is the global namespace; any other text has one
segment more than it has dots. -/
def internPath (dotted : String) : Interning NamespacePath :=
  if dotted.isEmpty then
    pure .root
  else do
    return ⟨← (Dotted.segments dotted).mapM intern⟩

def internTypeName (full : String) : Interning (NamespacePath × Name) := do
  let (space, simple) := Dotted.splitLast full
  let path ← internPath space
  let name ← intern simple
  return (path, name)

end Interner

end TypeEnv
