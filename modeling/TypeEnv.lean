import TypeEnv.Session.Attributes
import TypeEnv.Session.Canon
import TypeEnv.Session.Intrinsics
import TypeEnv.Session.Types
import TypeEnv.Ty.Display
import TypeEnv.Witness.Basic
import TypeEnv.Witness.Operator
import TypeEnv.Proofs.Units
import TypeEnv.Proofs.TyconIdentity
import TypeEnv.Proofs.Requests
import TypeEnv.Proofs.SessionRun
import TypeEnv.Proofs.Interner
import TypeEnv.Proofs.TypeLookup
import TypeEnv.Proofs.WellKnown
import TypeEnv.Proofs.Intrinsics
import TypeEnv.Proofs.Creation
import TypeEnv.Proofs.StampRules
import TypeEnv.Proofs.Bare
import TypeEnv.Proofs.Tuples
import TypeEnv.Proofs.CanonRules
import TypeEnv.Proofs.FirstUse
import TypeEnv.Proofs.Canonicalization
import TypeEnv.Proofs.CompiledTuples
import TypeEnv.Proofs.ImproveStrategies
import TypeEnv.Proofs.Applications
import TypeEnv.Proofs.CanonicalForms
import TypeEnv.Proofs.EmbeddedTypes
import TypeEnv.Proofs.Substitution
import TypeEnv.Proofs.WitnessTypes
import TypeEnv.Proofs.InternerCalls
import TypeEnv.Proofs.Construction
import TypeEnv.Proofs.Registrations
import TypeEnv.Proofs.WellKnownNames
import TypeEnv.Proofs.Collisions
import TypeEnv.Proofs.UnitCalls
import TypeEnv.Proofs.AttributeNames
import TypeEnv.Proofs.AttributeRequests
import TypeEnv.Proofs.AttributeRuns
import TypeEnv.Proofs.LocatedAttributes
import TypeEnv.Proofs.AttributeDescriptions
import TypeEnv.Proofs.EmbeddedAttributes
import TypeEnv.Proofs.PublicLookup
import TypeEnv.Proofs.TupleCoding
import TypeEnv.Proofs.DeepDecoding
import TypeEnv.Proofs.NormalForms
import TypeEnv.Proofs.DecompiledInstances
import TypeEnv.Proofs.ImprovedTypes
import TypeEnv.Proofs.TypeParameters
import TypeEnv.Proofs.Templates
import TypeEnv.Proofs.WitnessRequests
import TypeEnv.Proofs.RegisteredTypes
import TypeEnv.Proofs.TupleChains
import TypeEnv.Proofs.DottedNames
import TypeEnv.Proofs.FoundTypes
import TypeEnv.Proofs.DisplayedTypes
import TypeEnv.Proofs.Folds
import TypeEnv.Proofs.Instances
