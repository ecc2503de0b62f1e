import TypeEnv.Config
import TypeEnv.Diagnostic
import TypeEnv.Interner
import TypeEnv.Intrinsic.Id

/-!
How an operation of a session can fail. A `SessionError` is reported to the user or to the caller;
a `Breach` means that the caller broke a contract.
-/

namespace TypeEnv

structure WitnessShape where
  operands : Nat
  hasResult : Bool
  deriving DecidableEq

def WitnessShape.text (shape : WitnessShape) : String :=
  let result := if shape.hasResult then "a result" else "no result"
  s!"{shape.operands} operand(s) and {result}"

inductive SessionError where
  /-- a type was needed whose unit had not been found -/
  | deferredResolution (diagnostic : String)
  /-- a unit was found, but it does not define the type -/
  | typeNotFound (path unit : String)
  | unsupportedWitness (traitName : String) (shape : WitnessShape)
  | notEmbeddable (name : String)
  | invalidConfig (reason : ConfigError)
  deriving DecidableEq

namespace SessionError

def label : SessionError → String
  | .deferredResolution _ => "DeferredResolution"
  | .typeNotFound .. => "TypeNotFound"
  | .unsupportedWitness .. => "UnsupportedWitness"
  | .notEmbeddable _ => "NotEmbeddable"
  | .invalidConfig _ => "InvalidConfig"

def message : SessionError → String
  | .deferredResolution diagnostic => diagnostic
  | .typeNotFound path unit => s!"type `{path}` is not defined by compilation unit `{unit}`"
  | .unsupportedWitness traitName shape =>
    s!"no built-in witness for `{traitName}` with {shape.text}"
  | .notEmbeddable name => s!"attribute `{name}` is not available and cannot be embedded"
  | .invalidConfig reason => reason.message

def code : SessionError → ErrorCode
  | .deferredResolution _ => .unresolvedType
  | .typeNotFound .. => .undefinedType
  | .notEmbeddable _ => .notEmbeddable
  | .unsupportedWitness .. => .unsupportedWitness
  | .invalidConfig _ => .invalidConfig

def notes : SessionError → List String
  | .deferredResolution _ =>
    ["the type was referenced while building the global environment"]
  | .typeNotFound .. => ["the referenced compilation unit may be out of date"]
  | .notEmbeddable _ => ["only compiler-emitted marker attributes can be embedded"]
  | .unsupportedWitness .. =>
    ["the constraint solver requested a witness with no built-in shape"]
  | .invalidConfig _ => []

def toDiagnostic (error : SessionError) : Diagnostic where
  code := error.code
  message := error.message
  notes := error.notes

end SessionError

inductive Breach where
  | shardFull (full : ShardFull)
  /-- a name was read that the interner never handed out -/
  | unknownName
  | arrayRank (rank : Nat)
  | tupleArity (arity : Nat)
  | emptyTuple
  | missingTypeParameter (index : Nat)
  /-- a second known intrinsic under the linkage key of a registered one -/
  | duplicateKnown (registered added : IntrinsicId)
  deriving DecidableEq

def Breach.message : Breach → String
  | .shardFull full => full.message
  | .unknownName => "index out of bounds"
  | .arrayRank rank => s!"array rank {rank} is outside 1..=32"
  | .tupleArity arity => s!"no nominal tuple of arity {arity}"
  | .emptyTuple => "cannot encode an empty tuple"
  | .missingTypeParameter index => s!"template refers to missing type parameter {index}"
  | .duplicateKnown registered added =>
    s!"duplicate known intrinsic: {registered.label} and {added.label}"

inductive Failure where
  | error (error : SessionError)
  | breach (breach : Breach)
  deriving DecidableEq

/-- The string of a name that must have been handed out by the interner. -/
def Interner.lookup (interner : Interner) (name : Name) : Except Breach String :=
  match interner.lookup? name with
  | some text => .ok text
  | none => .error .unknownName

end TypeEnv
