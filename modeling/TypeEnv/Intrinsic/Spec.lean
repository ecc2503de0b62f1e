import TypeEnv.Intrinsic.Id
import TypeEnv.Intrinsic.Template

namespace TypeEnv

inductive DeclaringModule where
  | operators
  | checked
  | intrinsicOperators
  | languagePrimitives
  | hashCompare
  | intrinsicFunctions
  | operatorIntrinsics
  | runtimeHelpers
  | seqModule
  | extraTopLevelOperators
  | printfModule
  | quotations
  | lazyExtensions
  | queryRunExtensions
  | arrayModule
  deriving DecidableEq

namespace DeclaringModule

def all : List DeclaringModule :=
  [.operators, .checked, .intrinsicOperators, .languagePrimitives, .hashCompare,
   .intrinsicFunctions, .operatorIntrinsics, .runtimeHelpers, .seqModule, .extraTopLevelOperators,
   .printfModule, .quotations, .lazyExtensions, .queryRunExtensions, .arrayModule]

def label : DeclaringModule → String
  | .operators => "Operators"
  | .checked => "Checked"
  | .intrinsicOperators => "IntrinsicOperators"
  | .languagePrimitives => "LanguagePrimitives"
  | .hashCompare => "HashCompare"
  | .intrinsicFunctions => "IntrinsicFunctions"
  | .operatorIntrinsics => "OperatorIntrinsics"
  | .runtimeHelpers => "RuntimeHelpers"
  | .seqModule => "SeqModule"
  | .extraTopLevelOperators => "ExtraTopLevelOperators"
  | .printfModule => "PrintfModule"
  | .quotations => "Quotations"
  | .lazyExtensions => "LazyExtensions"
  | .queryRunExtensions => "QueryRunExtensions"
  | .arrayModule => "ArrayModule"

def space : DeclaringModule → String
  | .operators | .languagePrimitives | .extraTopLevelOperators | .printfModule => "Lumen.Core"
  | .checked | .operatorIntrinsics => "Lumen.Core.Operators"
  | .intrinsicOperators | .hashCompare | .intrinsicFunctions => "Lumen.Core.LanguagePrimitives"
  | .runtimeHelpers => "Lumen.Core.CompilerServices"
  | .seqModule | .arrayModule => "Lumen.Core.Collections"
  | .quotations => "Lumen.Core.Quotations"
  | .lazyExtensions => "Lumen.Core.Control"
  | .queryRunExtensions => "Lumen.Core.Linq"

def compiledName : DeclaringModule → String
  | .operators => "Operators"
  | .checked => "Checked"
  | .intrinsicOperators => "IntrinsicOperators"
  | .languagePrimitives => "LanguagePrimitives"
  | .hashCompare => "HashCompare"
  | .intrinsicFunctions => "IntrinsicFunctions"
  | .operatorIntrinsics => "OperatorIntrinsics"
  | .runtimeHelpers => "RuntimeHelpers"
  | .seqModule => "SeqModule"
  | .extraTopLevelOperators => "ExtraTopLevelOperators"
  | .printfModule => "PrintfModule"
  | .quotations => "Expr"
  | .lazyExtensions => "LazyExtensions"
  | .queryRunExtensions => "QueryRunExtensions"
  | .arrayModule => "ArrayModule"

end DeclaringModule

structure IntrinsicSpec where
  id : IntrinsicId
  declaredIn : DeclaringModule
  /-- the type that a member belongs to -/
  memberParent : Option String
  logicalName : String
  compiledName : String
  typars : List String
  signature : Signature
  /-- Known intrinsics are found by their linkage key. -/
  known : Bool

namespace IntrinsicSpec

def isMember (spec : IntrinsicSpec) : Bool := spec.memberParent.isSome

def declared (id : IntrinsicId) (declaredIn : DeclaringModule) (logicalName compiledName : String)
    (typars : List String) (signature : Signature) : IntrinsicSpec :=
  ⟨id, declaredIn, none, logicalName, compiledName, typars, signature, true⟩

def member (parent : String) (id : IntrinsicId) (declaredIn : DeclaringModule)
    (logicalName compiledName : String) (typars : List String) (signature : Signature) :
    IntrinsicSpec :=
  ⟨id, declaredIn, some parent, logicalName, compiledName, typars, signature, true⟩

/-- An intrinsic that is made when it is needed and not found by a key. -/
def onDemand (spec : IntrinsicSpec) : IntrinsicSpec := { spec with known := false }

def operator (id : IntrinsicId) (logicalName compiledName : String) (typars : List String)
    (signature : Signature) : IntrinsicSpec :=
  declared id .operators logicalName compiledName typars signature

def math (id : IntrinsicId) (logicalName compiledName : String) : IntrinsicSpec :=
  operator id logicalName compiledName ["T"] .endo

def conversion (id : IntrinsicId) (logicalName compiledName : String) (ret : Template) :
    IntrinsicSpec :=
  operator id logicalName compiledName ["T"] (.curried [.t] ret)

def binaryDynamic (id : IntrinsicId) (name : String) : IntrinsicSpec :=
  (declared id .languagePrimitives name name ["T1", "T2", "U"] .binary).onDemand

def unaryDynamic (id : IntrinsicId) (name : String) : IntrinsicSpec :=
  (declared id .languagePrimitives name name ["T", "U"] .unary).onDemand

def relationalDynamic (id : IntrinsicId) (name : String) : IntrinsicSpec :=
  (declared id .languagePrimitives name name ["T1", "T2"] .relation).onDemand

def hashCompare (id : IntrinsicId) (name : String) (typars : List String) (signature : Signature) :
    IntrinsicSpec :=
  declared id .hashCompare name name typars signature

def intrinsicFunction (id : IntrinsicId) (name : String) (typars : List String)
    (signature : Signature) : IntrinsicSpec :=
  declared id .intrinsicFunctions name name typars signature

end IntrinsicSpec

end TypeEnv
