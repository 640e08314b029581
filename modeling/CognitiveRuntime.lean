import CognitiveRuntime.Data.Ordered
import CognitiveRuntime.Data.Reach
import CognitiveRuntime.Data.Classes
import CognitiveRuntime.Data.Kahn
import CognitiveRuntime.Data.KahnCopies
import CognitiveRuntime.Data.Json
import CognitiveRuntime.Data.Fallible
import CognitiveRuntime.Data.Recency
import CognitiveRuntime.Data.Separated
import CognitiveRuntime.Data.Greedy
import CognitiveRuntime.Models.Digest
import CognitiveRuntime.Models.Context
import CognitiveRuntime.Models.Plan
import CognitiveRuntime.Compiler.Supersession
import CognitiveRuntime.Compiler.Resolution
import CognitiveRuntime.Models.Artifacts
import CognitiveRuntime.Models.FromMapping
import CognitiveRuntime.Compiler.Kernels
import CognitiveRuntime.Compiler.Activation
import CognitiveRuntime.Compiler.Requirements
import CognitiveRuntime.Compiler.Selection
import CognitiveRuntime.Compiler.TaskContext
import CognitiveRuntime.Compiler.Closure
import CognitiveRuntime.Compiler.Obligations
import CognitiveRuntime.Compiler.Contracts
import CognitiveRuntime.Graph.Validation
import CognitiveRuntime.Compiler.Liveness
import CognitiveRuntime.Compiler.Pipeline
import CognitiveRuntime.Compiler.ShippedPack
import CognitiveRuntime.Properties.Views
import CognitiveRuntime.Properties.Selected
import CognitiveRuntime.Properties.Unknowns
import CognitiveRuntime.Properties.SemanticKeys
import CognitiveRuntime.Properties.Planning
import CognitiveRuntime.Properties.EmptySnapshot
import CognitiveRuntime.Properties.ObligationConservation
import CognitiveRuntime.Properties.Noninterference
import CognitiveRuntime.Mcp.RunStore
import CognitiveRuntime.Properties.RunHistories
import CognitiveRuntime.Properties.Permissions
import CognitiveRuntime.Properties.Conflicts
import CognitiveRuntime.Properties.ArchitectureSurvival
import CognitiveRuntime.Properties.Closed
import CognitiveRuntime.Properties.BudgetProof
import CognitiveRuntime.Properties.SelectionRuns
import CognitiveRuntime.Properties.BudgetStops
import CognitiveRuntime.Properties.Authenticity
import CognitiveRuntime.Properties.PlanRuns
import CognitiveRuntime.Properties.ExactSelection
import CognitiveRuntime.Properties.CausalProvenance
import CognitiveRuntime.Properties.Blockers
import CognitiveRuntime.Properties.Recomputation
import CognitiveRuntime.Properties.Agreement
import CognitiveRuntime.Properties.DeclaredNeeds
import CognitiveRuntime.Properties.KernelDemand
import CognitiveRuntime.Properties.WriteSubjects
import CognitiveRuntime.Properties.ScopeExclusion
import CognitiveRuntime.Properties.OwnDomain
import CognitiveRuntime.Properties.Successors
import CognitiveRuntime.Properties.InputOrder
import CognitiveRuntime.Properties.CrossViews
import CognitiveRuntime.Properties.Displacement
import CognitiveRuntime.Properties.TopologicalOrder
import CognitiveRuntime.Properties.GraphValidation
import CognitiveRuntime.Properties.RawSort
import CognitiveRuntime.Properties.ScheduleOrder
import CognitiveRuntime.Properties.ChainOrder
import CognitiveRuntime.Properties.GraphDerivation
import CognitiveRuntime.Properties.Progress
import CognitiveRuntime.Properties.Snapshotless
import CognitiveRuntime.Properties.Uncontested
import CognitiveRuntime.Properties.ProvenPermissions
import CognitiveRuntime.Data.FirstBest
import CognitiveRuntime.Data.PyStr
import CognitiveRuntime.Data.PyJson
import CognitiveRuntime.Data.JsonString
import CognitiveRuntime.Data.JsonText
import CognitiveRuntime.Data.JsonOrder
import CognitiveRuntime.Data.Delimited
import CognitiveRuntime.Data.Access
import CognitiveRuntime.Models.Canonical
import CognitiveRuntime.Models.SnapshotMapping
import CognitiveRuntime.Mcp.Ingress
import CognitiveRuntime.Mcp.Auth
import CognitiveRuntime.Compiler.Convergence
import CognitiveRuntime.Compiler.Packet
import CognitiveRuntime.Compiler.Providers
import CognitiveRuntime.Pack.Loader
import CognitiveRuntime.Compiler.Adapters
import CognitiveRuntime.Properties.Routing
import CognitiveRuntime.Properties.TerminalGate
import CognitiveRuntime.Properties.CanonicalForm
import CognitiveRuntime.Properties.SnapshotIngress
import CognitiveRuntime.Compiler.RawNeeds
import CognitiveRuntime.Properties.RawPlanning
import CognitiveRuntime.Properties.Acceptance
import CognitiveRuntime.Properties.Principals
import CognitiveRuntime.Properties.ManifestBinding
import CognitiveRuntime.Properties.Rendering
import CognitiveRuntime.Properties.CycleDetection
import CognitiveRuntime.Data.PrivateView
import CognitiveRuntime.Data.JsonIndent
import CognitiveRuntime.Data.Front
import CognitiveRuntime.Mcp.Server
import CognitiveRuntime.Pack.Deployment
import CognitiveRuntime.Properties.PrivateShelf
import CognitiveRuntime.Properties.ServedRuns
import CognitiveRuntime.Properties.SemanticDigest
import CognitiveRuntime.Properties.ValidationTool
import CognitiveRuntime.Properties.ManifestIdentity
import CognitiveRuntime.Properties.SealedTree
import CognitiveRuntime.Properties.ClosedRoutes
import CognitiveRuntime.Properties.CopiedSources
import CognitiveRuntime.Properties.RestingSources
import CognitiveRuntime.Properties.SealedPack
