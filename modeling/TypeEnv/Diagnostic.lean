namespace TypeEnv

inductive ErrorCode where
  | unresolvedType
  | undefinedType
  | notEmbeddable
  | unsupportedWitness
  | invalidConfig
  deriving DecidableEq

namespace ErrorCode

def all : List ErrorCode :=
  [.unresolvedType, .undefinedType, .notEmbeddable, .unsupportedWitness, .invalidConfig]

/-- The first digit tells the phase: 2 for the type environment, 9 for the compiler itself. -/
def number : ErrorCode → Nat
  | .unresolvedType => 2101
  | .undefinedType => 2102
  | .notEmbeddable => 2103
  | .unsupportedWitness => 9101
  | .invalidConfig => 9102

def text (code : ErrorCode) : String := s!"E{code.number}"

/-- Internal errors are faults of the compiler, not of the program it compiles. -/
def isInternal (code : ErrorCode) : Bool := code.number / 1000 == 9

end ErrorCode

structure Diagnostic where
  code : ErrorCode
  message : String := ""
  notes : List String := []
  file : Option String := none
  deriving DecidableEq

namespace Diagnostic

def addNote (diagnostic : Diagnostic) (note : String) : Diagnostic :=
  { diagnostic with notes := diagnostic.notes ++ [note] }

def inFile (diagnostic : Diagnostic) (file : String) : Diagnostic :=
  { diagnostic with file := some file }

def render (diagnostic : Diagnostic) : String :=
  let headline := s!"error[{diagnostic.code.text}]: {diagnostic.message}"
  let location :=
    match diagnostic.file with
    | some file => "\n  --> " ++ file
    | none => ""
  headline ++ location ++ String.join (diagnostic.notes.map fun note => "\n  = note: " ++ note)

end Diagnostic

end TypeEnv
