import Neutrino.Library.Checked
import Neutrino.Library.Traced
import Neutrino.Library.Run
import Neutrino.Library.MachineInt
import Neutrino.Library.Ledger
import Neutrino.Library.Framing
import Neutrino.Library.HexText
import Neutrino.ValueModel
import Neutrino.Json
import Neutrino.Expr
import Neutrino.ExprJson
import Neutrino.Attestation
import Neutrino.StrCase
import Neutrino.CoordinationPlan
import Neutrino.PlanFromSpec
import Neutrino.CoordinationEnvelope
import Neutrino.CoordinationEval
import Neutrino.PlanShape
import Neutrino.Library.KeyedStore
import Neutrino.Transition
import Neutrino.KeyRecord
import Neutrino.RefusalCode
import Neutrino.TraceShape
import Neutrino.OracleInvariant
import Neutrino.GroupShape
import Neutrino.ExactlyOnce
import Neutrino.Replay
import Neutrino.Isolation
import Neutrino.Temporal
import Neutrino.AcceptanceBinding
import Neutrino.AcceptanceOrder
import Neutrino.AttestationGate
import Neutrino.ObligationTrace
import Neutrino.Library.DoubleEntry
import Neutrino.Conservation
import Neutrino.SpecBuilder
import Neutrino.PayloadImmutability
import Neutrino.Library.Tenants
import Neutrino.CoordinatorBounds
import Neutrino.Library.PrefixCode
import Neutrino.SemanticCore
import Neutrino.IdentityBinding
import Neutrino.Library.Colouring
import Neutrino.CanonicalLifecycle
import Neutrino.LifecycleRefinement
import Neutrino.LifecycleShape
import Neutrino.Library.CycleSearch
import Neutrino.Library.SortOn
import Neutrino.ProjectionGraph
import Neutrino.JsonCompact
import Neutrino.ProjectionConsume
import Neutrino.ProjectionVerify
import Neutrino.ProjectionVerified
import Neutrino.FinalizedPostings
import Neutrino.ProjectionShuffle
import Neutrino.WireCodec
import Neutrino.ProjectionCodec
import Neutrino.WireBytes
import Neutrino.JsonParse
import Neutrino.Library.FirstBy
import Neutrino.Library.Reach
import Neutrino.CanonicalLabels
import Neutrino.BackendProjection
import Neutrino.NodeIds
import Neutrino.ProjectedEdges
import Neutrino.ProjectedGuards
import Neutrino.GuardPreservation
import Neutrino.SqlText
import Neutrino.SqlRendering
import Neutrino.BackendProtocol
import Neutrino.BackendSession
import Neutrino.SessionSteps
import Neutrino.ControlFrames
import Neutrino.SessionScratch
import Neutrino.SessionEmission
import Neutrino.Library.Duplex
import Neutrino.SkippedFrames
import Neutrino.PeerChannels
import Neutrino.FrameTransparency
import Neutrino.BackendInvoker
import Neutrino.InvokerPhases
import Neutrino.InvokerStreams
import Neutrino.DispatchReceipt
import Neutrino.JsonLaws
import Neutrino.ReceiptRoundTrip
import Neutrino.Library.Stateful
import Neutrino.RecipeModule
import Neutrino.RecipeInterpreter
import Neutrino.RecipeForest
import Neutrino.Library.GuardedSearch
import Neutrino.L2Imports
import Neutrino.ImportGraph
import Neutrino.SolidityText
import Neutrino.SolidityContract
import Neutrino.SolidityRendering
import Neutrino.ProcedureView
import Neutrino.ScenarioCheck
import Neutrino.JsonSame
import Neutrino.JsonBuild
import Neutrino.CapabilitySpec
import Neutrino.JsonIndent
import Neutrino.AgreementEnvelope
import Neutrino.PlanLegality
import Neutrino.Library.OneShot
import Neutrino.QuorumGuard
import Neutrino.QuorumGates
import Neutrino.QuorumAdmission
import Neutrino.OracleObserver
import Neutrino.SourceLines
import Neutrino.DialectExpansion
import Neutrino.DialectInjection
import Neutrino.BackendPackage
import Neutrino.PackageDiscovery
import Neutrino.ClaimCalls
import Neutrino.ClaimAgreement
import Neutrino.PythonJson
import Neutrino.AgreementChecks
import Neutrino.EvidenceRails
import Neutrino.EvidencePlan
import Neutrino.Library.Lockstep
import Neutrino.EvidenceRefinement
import Neutrino.PlanNormalization
import Neutrino.SpecValidator
import Neutrino.SpecSchema
import Neutrino.SpecShapes
import Neutrino.SpecMirror
import Neutrino.ExprParser
import Neutrino.NumeralScan
import Neutrino.ExprPrinting
import Neutrino.Library.FirstFault
import Neutrino.TypedEvaluation
import Neutrino.TraceEquivalence
import Neutrino.PostingOutcome
import Neutrino.ExecutionClaim
import Neutrino.GuardIngestion
import Neutrino.PackText
import Neutrino.DomainPack
import Neutrino.PackBinding
import Neutrino.PackVerdict
import Neutrino.Library.StreamCodec
import Neutrino.FrameCodec
import Neutrino.FrameReader
import Neutrino.OracleFiles
import Neutrino.SecurityReport
import Neutrino.SecurityVerdict
import Neutrino.Library.Permuted
import Neutrino.JsonExact
import Neutrino.ControlCodec
import Neutrino.Library.Durable
import Neutrino.ArtifactPublication
import Neutrino.PublicationOutcome
import Neutrino.PublishedEmission
import Neutrino.FlattenedRecipes
import Neutrino.RecipeRebuilding
import Neutrino.RecipeOwnership
import Neutrino.ExprAttrText
import Neutrino.MlirLexing
import Neutrino.ExprAttrRoundTrip
import Neutrino.ParticipantViews
import Neutrino.CounterpartyViews
import Neutrino.PythonOperators
import Neutrino.BindingManifest
import Neutrino.BindingAdmission
import Neutrino.SchemaEvaluator
import Neutrino.SchemaMeaning
import Neutrino.SchemaExactness
import Neutrino.Library.MarkedSearch
import Neutrino.ComputeCycles
import Neutrino.AuthorizationColors
import Neutrino.AuthorizationRefinement
import Neutrino.SpecLegality
import Neutrino.LegalityGates
import Neutrino.DispatchStages
import Neutrino.SpecRoundTrip
import Neutrino.TransitionProgress
import Neutrino.ViewSufficiency
import Neutrino.Recomputation
