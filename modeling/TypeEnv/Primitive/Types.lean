import TypeEnv.Tycon.WellKnown

/-!
The types of the primitives. Each primitive has one shared handle, and those that may be null have
one more for each tracked nullness, so a primitive is recognised by its handle alone.
-/

namespace TypeEnv

structure PrimitiveTypes where
  constructors : Table PrimitiveKind TyconRef
  tracksNull : Bool

namespace PrimitiveTypes

def sharedNode : NodeId := 0

/-- The shared handle for a nullness. Only a reference type with null tracking has more than one. -/
def shared (prims : PrimitiveTypes) (kind : PrimitiveKind) (nullness : Nullness) : Ty :=
  .app sharedNode (prims.constructors.get kind) []
    (if prims.tracksNull && kind.isNullableReference then nullness else .ambivalent)

def get (prims : PrimitiveTypes) (kind : PrimitiveKind) : Ty := prims.shared kind .ambivalent

/-- The primitive with this nullness. With null tracking, a value type that is not ambivalent is a
new node; all else is a shared handle. -/
def withNullness (prims : PrimitiveTypes) (node : NodeId) (kind : PrimitiveKind)
    (nullness : Nullness) : Ty :=
  if nullness = .ambivalent || kind.isNullableReference || !prims.tracksNull then
    prims.shared kind nullness
  else
    .app node (prims.constructors.get kind) [] nullness

def kindOf? (prims : PrimitiveTypes) (ty : Ty) : Option PrimitiveKind :=
  PrimitiveKind.all.find? fun kind =>
    ty = prims.shared kind .ambivalent ∨ ty = prims.shared kind .withoutNull ∨
      ty = prims.shared kind .withNull

end PrimitiveTypes

end TypeEnv
