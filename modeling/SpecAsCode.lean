import SpecAsCode.Verifier.EvaluateSound
import SpecAsCode.Runtime.TamperEvidence
import SpecAsCode.Runtime.EvidenceStore
import SpecAsCode.Runtime.Attestation
import SpecAsCode.Runtime.CrashRecovery
import SpecAsCode.Lib.Occurrence
import SpecAsCode.Text.Utf8Search
import SpecAsCode.Core.RelPath
import SpecAsCode.Executor.Patch
import SpecAsCode.Executor.PatchStaging
import SpecAsCode.Executor.UnmediatedGuard
import SpecAsCode.Executor.Enforce
import SpecAsCode.Core.Glob
import SpecAsCode.Core.GlobOverlap
import SpecAsCode.Core.Diagnostics
import SpecAsCode.Core.Graph
import SpecAsCode.Core.ValidatePlan
import SpecAsCode.Runtime.WriteConflicts
import SpecAsCode.Runtime.Runs
import SpecAsCode.Runtime.InheritedFlips
import SpecAsCode.Runtime.ChainedStates
import SpecAsCode.Js.JsonObject
import SpecAsCode.Js.Spaced
import SpecAsCode.Js.Indented
import SpecAsCode.Schema.Followup
import SpecAsCode.Runtime.Followups
import SpecAsCode.Verifier.Suites
import SpecAsCode.Verifier.Criteria
import SpecAsCode.Runtime.RunRecords
import SpecAsCode.Runtime.Verify
import SpecAsCode.Runtime.ResolveFollowup
import SpecAsCode.Cli.ScopedDiffVerify
import SpecAsCode.Cli.SubmissionDoors
import SpecAsCode.Runtime.SatisfactionEvidence
import SpecAsCode.Lib.History
import SpecAsCode.Runtime.RunHistory
import SpecAsCode.Runtime.FirmSatisfaction
import SpecAsCode.Runtime.HumanVerdicts
import SpecAsCode.Runtime.RedPhaseGate
import SpecAsCode.Runtime.RunExtension
import SpecAsCode.Runtime.Projection
import SpecAsCode.Runtime.Replay
import SpecAsCode.Runtime.Bundle
import SpecAsCode.Runtime.Export
import SpecAsCode.Runtime.BundleVerdicts
import SpecAsCode.Runtime.ExportedFiles
import SpecAsCode.Runtime.ExportRoundTrip
import SpecAsCode.Repo.Worktree
import SpecAsCode.Repo.Content
import SpecAsCode.Repo.Commits
import SpecAsCode.Runtime.ExecutionIntent
import SpecAsCode.Runtime.ApplyOwnership
import SpecAsCode.Runtime.EventWriters
import SpecAsCode.Runtime.SharedLog
import SpecAsCode.Runtime.EvidenceWriters
import SpecAsCode.Lib.CrashPoints
import SpecAsCode.Runtime.ResolutionCrash
import SpecAsCode.Runtime.FollowupLedger
import SpecAsCode.Runtime.RecoveryCrash
import SpecAsCode.Runtime.RunActors
import SpecAsCode.Runtime.SafetyWindow
import SpecAsCode.Runtime.CancelTruth
import SpecAsCode.Runtime.TerminalEvents
import SpecAsCode.Runtime.StateFile
import SpecAsCode.Runtime.VerifyRun
import SpecAsCode.Runtime.ProjectionCoherence
import SpecAsCode.Lib.Races
import SpecAsCode.Runtime.ParallelDriver
import SpecAsCode.Runtime.ParallelFlights
import SpecAsCode.Runtime.ParallelIsolation
import SpecAsCode.Runtime.ParallelDrain
import SpecAsCode.Runtime.ParallelExit
import SpecAsCode.Runtime.CommittingRun
import SpecAsCode.Runtime.TaskRevisions
import SpecAsCode.Runtime.ExemptedPaths
import SpecAsCode.Runtime.ModelBudget
import SpecAsCode.Core.Encoder
import SpecAsCode.Schema.Spec
import SpecAsCode.Core.NormalizeSpec
import SpecAsCode.Core.SpecDocument
import SpecAsCode.Core.NormalizePlan
import SpecAsCode.Core.PlanDigest
import SpecAsCode.Core.Cycles
import SpecAsCode.Js.Path
import SpecAsCode.Core.SpecSemantics
import SpecAsCode.Core.GraphLoading
import SpecAsCode.Core.ComposedSpec
import SpecAsCode.Core.CriteriaApart
import SpecAsCode.Runtime.SpecLoader
import SpecAsCode.Runtime.LoaderAgreement
import SpecAsCode.Core.AmendedPlans
import SpecAsCode.Executor.Commands
import SpecAsCode.Planner.AmendmentRisk
import SpecAsCode.Verifier.CommandVerdict
import SpecAsCode.Harness.Polling
import SpecAsCode.Harness.Candidates
import SpecAsCode.Harness.Ownership
import SpecAsCode.Runtime.ContaminationGuard
import SpecAsCode.Js.ToNumber
import SpecAsCode.Lib.Carryover
import SpecAsCode.Llm.Anthropic
import SpecAsCode.Llm.MessageStream
import SpecAsCode.Llm.TransportParity
import SpecAsCode.Llm.StreamingAgreement
import SpecAsCode.Cli.DiffDisjointness
import SpecAsCode.Lib.Terminated
import SpecAsCode.Verifier.CommandCache
import SpecAsCode.Verifier.CommandReuse
import SpecAsCode.Runtime.Freshness
import SpecAsCode.Runtime.FreshnessRuns
import SpecAsCode.Lib.Rounds
import SpecAsCode.Lib.Unreachable
import SpecAsCode.Runtime.Scheduler
import SpecAsCode.Runtime.SchedulerCompleteness
import SpecAsCode.Runtime.ParallelCompleteness
import SpecAsCode.Executor.ExecuteTask
import SpecAsCode.Executor.StagingRounds
import SpecAsCode.Lib.Disk
import SpecAsCode.Cli.PatchOps
import SpecAsCode.Cli.PatchGuarantees
import SpecAsCode.Js.RegexMatches
import SpecAsCode.Js.RegexGuards
import SpecAsCode.Executor.CommandChains
import SpecAsCode.Executor.Redaction
import SpecAsCode.Core.GlobSource
import SpecAsCode.Core.GlobSegments
import SpecAsCode.Harness.SchemaSemantics
import SpecAsCode.Js.Trim
import SpecAsCode.Core.SourcePositions
import SpecAsCode.Core.ClosedPaths
import SpecAsCode.Core.TopoSort
import SpecAsCode.Js.Printed
import SpecAsCode.Harness.EmbeddedPayload
import SpecAsCode.Verifier.FilterScopes
import SpecAsCode.Runtime.ExecutionLock
import SpecAsCode.Harness.StoreLock
import SpecAsCode.Core.YamlWalk
import SpecAsCode.Core.YamlSpecs
import SpecAsCode.Core.MetadataHashing
import SpecAsCode.Core.SpecCompilation
import SpecAsCode.Runtime.SpecSnapshot
import SpecAsCode.Js.StringModes
import SpecAsCode.Js.TextContents
import SpecAsCode.Llm.ExtractJson
import SpecAsCode.Planner.ExecutablePlans
import SpecAsCode.Runtime.ScheduleAgreement
import SpecAsCode.Planner.PlanGeneration
import SpecAsCode.Runtime.Replans
import SpecAsCode.Executor.DeclaredCommands
import SpecAsCode.Repo.Observer
