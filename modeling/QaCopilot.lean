import QaCopilot.Evaluation.SpendLatch
import QaCopilot.Evaluation.C1Agreement
import QaCopilot.Evaluation.LabelSoundness
import QaCopilot.Evaluation.ReviewDisagreements
import QaCopilot.Evaluation.ReviewRoles
import QaCopilot.Evaluation.ReviewVerdicts
import QaCopilot.Evaluation.RunRoundTrip
import QaCopilot.Evaluation.ScoredRuns
import QaCopilot.Ingestion.Quotas
import QaCopilot.Ingestion.IntakeHistory
import QaCopilot.Ingestion.ParsedLines
import QaCopilot.Ingestion.ParserWakeups
import QaCopilot.Ingestion.PdfAddresses
import QaCopilot.Indexing.Isolation
import QaCopilot.Requirements.FindingIds
import QaCopilot.Retrieval.Citations
import QaCopilot.Indexing.ChunkCoverage
import QaCopilot.Retrieval.Fusion
import QaCopilot.Execution.JsonPointers
import QaCopilot.Execution.Responses
import QaCopilot.Execution.TargetHosts
import QaCopilot.GuestDemo.PublicationRuns
import QaCopilot.GuestDemo.SnapshotRenaming
import QaCopilot.Migration.RotationAgreement
import QaCopilot.Openapi.FactDifferences
import QaCopilot.Openapi.FactIdentifiers
import QaCopilot.Openapi.FactPointers
import QaCopilot.Openapi.FailsClosed
import QaCopilot.Openapi.InheritedSecurity
import QaCopilot.Execution.GeneratedTests
import QaCopilot.Execution.StoredTests
import QaCopilot.Execution.TestRevisions
import QaCopilot.Execution.DuplicateGroups
import QaCopilot.GuestDemo.AssembledReport
import QaCopilot.GuestDemo.ClosedProjection
import QaCopilot.Metrics.CostReport
import QaCopilot.Metrics.ReportOrder
import QaCopilot.Execution.Plans
import QaCopilot.Python.AsciiJson
import QaCopilot.Execution.PlanHashes
