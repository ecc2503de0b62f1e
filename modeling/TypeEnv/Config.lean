namespace TypeEnv

inductive CompilationMode where
  | batch
  | interactive
  | service
  deriving DecidableEq

def CompilationMode.label : CompilationMode → String
  | .batch => "Batch"
  | .interactive => "Interactive"
  | .service => "Service"

def CompilationMode.isInteractive (mode : CompilationMode) : Bool := mode == .interactive

structure LangVersion where
  major : Nat
  minor : Nat
  deriving DecidableEq

inductive LangFeature where
  | structTuples
  | embeddedAttributes
  | nullnessChecking
  deriving DecidableEq

namespace LangVersion

instance : LE LangVersion :=
  ⟨fun left right => left.major < right.major ∨ left.major = right.major ∧ left.minor ≤ right.minor⟩

instance (left right : LangVersion) : Decidable (left ≤ right) :=
  inferInstanceAs (Decidable (_ ∨ _))

instance : Ord LangVersion :=
  ⟨fun left right => if left = right then .eq else if left ≤ right then .lt else .gt⟩

def oldest : LangVersion := ⟨1, 0⟩

def latest : LangVersion := ⟨3, 1⟩

def isSupported (version : LangVersion) : Bool := oldest ≤ version ∧ version ≤ latest

def text (version : LangVersion) : String := s!"{version.major}.{version.minor}"

end LangVersion

def LangFeature.since : LangFeature → LangVersion
  | .structTuples => ⟨1, 1⟩
  | .embeddedAttributes => ⟨2, 0⟩
  | .nullnessChecking => ⟨3, 0⟩

def LangVersion.supports (version : LangVersion) (feature : LangFeature) : Bool :=
  feature.since ≤ version

namespace SourcePath

/-- Source paths are written with slashes, and an absolute one starts with a slash. -/
def isAbsolute (path : String) : Bool := path.toList.head? == some '/'

/-- One slash stands between the parts; a base that ends in a slash gets no second one. -/
def join (base path : String) : String :=
  if base.toList.getLast? == some '/' then base ++ path else base ++ "/" ++ path

end SourcePath

inductive ConfigError where
  | relativeBasePath (path : String)
  | unsupportedVersion (version : LangVersion)
  deriving DecidableEq

def ConfigError.label : ConfigError → String
  | .relativeBasePath _ => "RelativeBasePath"
  | .unsupportedVersion _ => "UnsupportedLanguageVersion"

def ConfigError.message : ConfigError → String
  | .relativeBasePath path => s!"base path `{path}` must be absolute"
  | .unsupportedVersion version =>
    s!"language version {version.text} is outside the supported range " ++
      s!"{LangVersion.oldest.text}..={LangVersion.latest.text}"

structure Config where
  /-- The unit under compilation is the standard library of the language. -/
  compilingStdLib : Bool := false
  nullTracking : Bool := false
  mode : CompilationMode := .batch
  langVersion : LangVersion := .latest
  /-- The empty path stands for no base path. -/
  basePath : String := ""
  /-- Generated members carry no debugger attributes. -/
  suppressDebugAttributes : Bool := false
  stdLibName : String := "Lumen.Core"
  deriving DecidableEq

namespace Config

/-- A base path must be absolute and the language version supported; the path is looked at first. -/
def validate (config : Config) : Except ConfigError Unit :=
  if !config.basePath.isEmpty && !SourcePath.isAbsolute config.basePath then
    .error (.relativeBasePath config.basePath)
  else if !config.langVersion.isSupported then
    .error (.unsupportedVersion config.langVersion)
  else
    .ok ()

def supports (config : Config) (feature : LangFeature) : Bool :=
  config.langVersion.supports feature

/-- Null tracking has an effect only in a language version that checks nullness. -/
def tracksNull (config : Config) : Bool :=
  config.nullTracking && config.supports .nullnessChecking

/-- An absolute path stays as it is, and so does every path when there is no base path. -/
def resolveSourcePath (config : Config) (path : String) : String :=
  if SourcePath.isAbsolute path || config.basePath.isEmpty then path
  else SourcePath.join config.basePath path

end Config

end TypeEnv
