import TypeEnv.Attribute.Catalogue
import TypeEnv.Enumerated

namespace TypeEnv

inductive RequiredAttribute where
  | compilerGenerated
  | debuggerHidden
  | debuggerBrowsable
  | debuggerNonUserCode
  | debuggerStepThrough
  | debuggable
  | paramArray
  | extension
  | structLayout
  | obsolete
  | conditional
  deriving DecidableEq

namespace RequiredAttribute

def all : List RequiredAttribute :=
  [.compilerGenerated, .debuggerHidden, .debuggerBrowsable, .debuggerNonUserCode,
   .debuggerStepThrough, .debuggable, .paramArray, .extension, .structLayout, .obsolete,
   .conditional]

instance : Enumerated RequiredAttribute where
  all := all
  index attr := ⟨attr.ctorIdx, by cases attr <;> decide⟩
  get_index attr := by cases attr <;> rfl

def label : RequiredAttribute → String
  | .compilerGenerated => "compiler_generated"
  | .debuggerHidden => "debugger_hidden"
  | .debuggerBrowsable => "debugger_browsable"
  | .debuggerNonUserCode => "debugger_non_user_code"
  | .debuggerStepThrough => "debugger_step_through"
  | .debuggable => "debuggable"
  | .paramArray => "param_array"
  | .extension => "extension"
  | .structLayout => "struct_layout"
  | .obsolete => "obsolete"
  | .conditional => "conditional"

def fullName : RequiredAttribute → String
  | .compilerGenerated => "System.Runtime.CompilerServices.CompilerGeneratedAttribute"
  | .debuggerHidden => "System.Diagnostics.DebuggerHiddenAttribute"
  | .debuggerBrowsable => "System.Diagnostics.DebuggerBrowsableAttribute"
  | .debuggerNonUserCode => "System.Diagnostics.DebuggerNonUserCodeAttribute"
  | .debuggerStepThrough => "System.Diagnostics.DebuggerStepThroughAttribute"
  | .debuggable => "System.Diagnostics.DebuggableAttribute"
  | .paramArray => "System.ParamArrayAttribute"
  | .extension => "System.Runtime.CompilerServices.ExtensionAttribute"
  | .structLayout => "System.Runtime.InteropServices.StructLayoutAttribute"
  | .obsolete => "System.ObsoleteAttribute"
  | .conditional => "System.Diagnostics.ConditionalAttribute"

end RequiredAttribute

inductive OptionalAttribute where
  | isReadOnly
  | isByRefLike
  | isUnmanaged
  | requiredMember
  | setsRequiredMembers
  | compilerFeatureRequired
  | nullable
  | nullableContext
  deriving DecidableEq

namespace OptionalAttribute

def all : List OptionalAttribute :=
  [.isReadOnly, .isByRefLike, .isUnmanaged, .requiredMember, .setsRequiredMembers,
   .compilerFeatureRequired, .nullable, .nullableContext]

instance : Enumerated OptionalAttribute where
  all := all
  index attr := ⟨attr.ctorIdx, by cases attr <;> decide⟩
  get_index attr := by cases attr <;> rfl

def label : OptionalAttribute → String
  | .isReadOnly => "is_read_only"
  | .isByRefLike => "is_by_ref_like"
  | .isUnmanaged => "is_unmanaged"
  | .requiredMember => "required_member"
  | .setsRequiredMembers => "sets_required_members"
  | .compilerFeatureRequired => "compiler_feature_required"
  | .nullable => "nullable"
  | .nullableContext => "nullable_context"

def fullName : OptionalAttribute → String
  | .isReadOnly => "System.Runtime.CompilerServices.IsReadOnlyAttribute"
  | .isByRefLike => "System.Runtime.CompilerServices.IsByRefLikeAttribute"
  | .isUnmanaged => "System.Runtime.CompilerServices.IsUnmanagedAttribute"
  | .requiredMember => "System.Runtime.CompilerServices.RequiredMemberAttribute"
  | .setsRequiredMembers => "System.Diagnostics.CodeAnalysis.SetsRequiredMembersAttribute"
  | .compilerFeatureRequired => "System.Runtime.CompilerServices.CompilerFeatureRequiredAttribute"
  | .nullable => "System.Runtime.CompilerServices.NullableAttribute"
  | .nullableContext => "System.Runtime.CompilerServices.NullableContextAttribute"

end OptionalAttribute

structure WellKnownAttributes where
  required : Table RequiredAttribute AttributeInfo
  optional : Table OptionalAttribute (Option AttributeInfo)

namespace WellKnownAttributes

/-- Looks the listed attributes up one after the other; each look-up is kept in the catalogue. -/
def findAll (resolver : Resolver) (store : UnitStore) (catalogue : AttributeCatalogue) :
    (attributes : List RequiredAttribute) →
      Interning ({ infos : List AttributeInfo // infos.length = attributes.length } ×
        AttributeCatalogue)
  | [] => return (⟨[], rfl⟩, catalogue)
  | attr :: rest => do
    let (info, catalogue) ← catalogue.find resolver store attr.fullName
    let (infos, catalogue) ← findAll resolver store catalogue rest
    return (⟨info :: infos.val, by simp [infos.property]⟩, catalogue)

def locate (resolver : Resolver) (store : UnitStore) :
    Interning (WellKnownAttributes × AttributeCatalogue) := do
  let (infos, catalogue) ← findAll resolver store {} RequiredAttribute.all
  let optional ← Table.ofFnM fun attr : OptionalAttribute =>
    AttributeCatalogue.find? resolver store attr.fullName
  return (⟨⟨infos.val, infos.property⟩, optional⟩, catalogue)

end WellKnownAttributes

inductive GeneratedMember where
  | method
  | property
  | field
  deriving DecidableEq

namespace WellKnownAttributes

def compilerGenerated (attributes : WellKnownAttributes) : CustomAttribute :=
  (attributes.required.get .compilerGenerated).custom []

def debuggerHidden (attributes : WellKnownAttributes) : CustomAttribute :=
  (attributes.required.get .debuggerHidden).custom []

def debuggerNonUserCode (attributes : WellKnownAttributes) : CustomAttribute :=
  (attributes.required.get .debuggerNonUserCode).custom []

def debuggerStepThrough (attributes : WellKnownAttributes) : CustomAttribute :=
  (attributes.required.get .debuggerStepThrough).custom []

/-- The state zero hides a member from the debugger's view of data. -/
def debuggerBrowsableNever (attributes : WellKnownAttributes) : CustomAttribute :=
  (attributes.required.get .debuggerBrowsable).custom [.int32 0]

def forGenerated (attributes : WellKnownAttributes) (suppressDebug : Bool) :
    GeneratedMember → List CustomAttribute
  | .method | .property =>
    attributes.compilerGenerated ::
      if suppressDebug then [] else [attributes.debuggerNonUserCode]
  | .field =>
    attributes.compilerGenerated ::
      if suppressDebug then [] else [attributes.debuggerBrowsableNever]

end WellKnownAttributes

end TypeEnv
