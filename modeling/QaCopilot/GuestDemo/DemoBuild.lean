import QaCopilot.GuestDemo.SnapshotSchema
import QaCopilot.Requirements.Findings

/-!
# A build of the guest demo

The report, the citations and the fixture of a build, as far as the snapshot reads them, and the
texts that the report generator may write.
-/

namespace QaCopilot.GuestDemo

open Python

/-! ## Reports -/

inductive SectionName where
  | scope
  | sourceInventory
  | findings
  | generatedTests
  | reviewedTests
  | traceability
  | executionEvidence
  | failureAnalysis
  | metrics
  | provenance
  | limitations
deriving DecidableEq

def SectionName.value : SectionName → Str
  | .scope => lit "scope"
  | .sourceInventory => lit "source_inventory"
  | .findings => lit "findings"
  | .generatedTests => lit "generated_tests"
  | .reviewedTests => lit "reviewed_tests"
  | .traceability => lit "traceability"
  | .executionEvidence => lit "execution_evidence"
  | .failureAnalysis => lit "failure_analysis"
  | .metrics => lit "metrics"
  | .provenance => lit "provenance"
  | .limitations => lit "limitations"

inductive SectionState where
  | complete
  | notRun
  | failed
  | notAvailable
  | notApplicable
  | unsupported
deriving DecidableEq

def SectionState.value : SectionState → Str
  | .complete => lit "complete"
  | .notRun => lit "not_run"
  | .failed => lit "failed"
  | .notAvailable => lit "not_available"
  | .notApplicable => lit "not_applicable"
  | .unsupported => lit "unsupported"

inductive ClaimKind where
  | observation
  | analysis
  | hypothesis
  | recommendation
  | limitation
  | unsupported
deriving DecidableEq

def ClaimKind.value : ClaimKind → Str
  | .observation => lit "observation"
  | .analysis => lit "analysis"
  | .hypothesis => lit "hypothesis"
  | .recommendation => lit "recommendation"
  | .limitation => lit "limitation"
  | .unsupported => lit "unsupported"

inductive EvidenceKind where
  | citation
  | finding
  | testCase
  | traceability
  | executionResult
  | failureAnalysis
  | retrievalTrace
  | modelConfiguration
deriving DecidableEq

def EvidenceKind.value : EvidenceKind → Str
  | .citation => lit "citation"
  | .finding => lit "finding"
  | .testCase => lit "test_case"
  | .traceability => lit "traceability"
  | .executionResult => lit "execution_result"
  | .failureAnalysis => lit "failure_analysis"
  | .retrievalTrace => lit "retrieval_trace"
  | .modelConfiguration => lit "model_configuration"

structure EvidenceReference where
  kind : EvidenceKind
  id : Uuid

structure Claim where
  kind : ClaimKind
  statement : Str
  evidence : List EvidenceReference
  unsupported : Bool
  unsupportedReason : Option Str

structure ReportSection where
  name : SectionName
  state : SectionState
  stateReason : Option Str
  claims : List Claim

structure QualityReport where
  evidenceCatalog : List EvidenceReference
  sections : List ReportSection

structure FindingCount where
  severity : Str
  category : Str
  count : Int

structure SnapshotSummary where
  sourceDocumentVersionCount : Int
  requirementAnalysisRunCount : Int
  findingCount : Int
  findingCounts : List FindingCount
  generatedTestCaseCount : Int
  executionCount : Int
  succeededExecutionCount : Int
  failedExecutionCount : Int
  cancelledExecutionCount : Int
  failureAnalysisCount : Int

def FindingCount.asPayload (c : FindingCount) : Json :=
  .dict [(lit "severity", .str c.severity), (lit "category", .str c.category),
    (lit "count", .int c.count)]

def SnapshotSummary.asPayload (s : SnapshotSummary) : Mapping :=
  [(lit "source_document_version_count", .int s.sourceDocumentVersionCount),
    (lit "requirement_analysis_run_count", .int s.requirementAnalysisRunCount),
    (lit "finding_count", .int s.findingCount),
    (lit "finding_counts", .list (s.findingCounts.map FindingCount.asPayload)),
    (lit "generated_test_case_count", .int s.generatedTestCaseCount),
    (lit "execution_count", .int s.executionCount),
    (lit "succeeded_execution_count", .int s.succeededExecutionCount),
    (lit "failed_execution_count", .int s.failedExecutionCount),
    (lit "cancelled_execution_count", .int s.cancelledExecutionCount),
    (lit "failure_analysis_count", .int s.failureAnalysisCount)]

structure EvidenceSnapshot where
  report : QualityReport
  summary : SnapshotSummary

/-! ## Builds -/

structure SourceLocation where
  locationKind : Str
  lineStart : Option Int
  lineEnd : Option Int
  pageStart : Option Int
  pageEnd : Option Int

structure Citation where
  id : Uuid
  sourceLocation : SourceLocation
  passage : Str

structure DemoFixture where
  fixtureId : Str
  fixtureVersion : Int
  classification : Str

structure DemoBuild where
  fixture : DemoFixture
  snapshot : EvidenceSnapshot
  citations : List Citation
  analyzerVersion : Str
  testGeneratorVersion : Str
  internalIdentifiers : List Str

/-- The identifiers of a build that the snapshot reads. -/
def DemoBuild.uuids (b : DemoBuild) : List Uuid :=
  b.snapshot.report.evidenceCatalog.map (·.id) ++ b.citations.map (·.id) ++
    b.snapshot.report.sections.flatMap fun s => s.claims.flatMap fun c => c.evidence.map (·.id)

/-! ## Renamed identifiers -/

section
variable (ρ : Uuid → Uuid)

def EvidenceReference.rename (r : EvidenceReference) : EvidenceReference := { r with id := ρ r.id }

def Claim.rename (c : Claim) : Claim := { c with evidence := c.evidence.map (·.rename ρ) }

def ReportSection.rename (s : ReportSection) : ReportSection :=
  { s with claims := s.claims.map (·.rename ρ) }

def QualityReport.rename (r : QualityReport) : QualityReport :=
  ⟨r.evidenceCatalog.map (·.rename ρ), r.sections.map (·.rename ρ)⟩

def Citation.rename (c : Citation) : Citation := { c with id := ρ c.id }

/-- The build with other UUIDs, whatever its texts to hide become. -/
def DemoBuild.rename (b : DemoBuild) (internalIdentifiers : List Str) : DemoBuild :=
  { b with
    snapshot := { b.snapshot with report := b.snapshot.report.rename ρ }
    citations := b.citations.map (·.rename ρ)
    internalIdentifiers }

@[simp] theorem internalIdentifiers_rename (b : DemoBuild) (ids : List Str) :
    (b.rename ρ ids).internalIdentifiers = ids := rfl

end

/-! ## The texts of the report generator -/

/-- `_FIXED_TEXTS` -/
def fixedTexts : List Str :=
  [lit "The report snapshot is scoped to its catalogued project evidence.",
    lit "No immutable source document versions were selected for this snapshot.",
    lit "Requirement analysis was not run for this snapshot.",
    lit "A persisted finding is explicitly marked unsupported.",
    lit "The finding record does not establish a supported claim.",
    lit "Generated test design was not run for this snapshot.",
    lit "A generated test proposal is linked to its finding and citations.",
    lit "Immutable reviewed-test revision snapshots are not available yet.",
    lit "Immutable traceability-link revisions are not available yet.",
    lit "No approved execution was run for this snapshot.",
    lit "Execution evidence was not available when this snapshot was assembled.",
    lit "No failed or cancelled execution requires failure analysis.",
    lit "No execution was run for this snapshot.",
    lit "Failure analysis is unavailable because execution evidence was unavailable.",
    lit "Failure analysis preserves observations and hypotheses without asserting " ++
      lit "a root cause.",
    lit "This report pins immutable provenance identifiers for every selected " ++
      lit "source, analysis, test, and execution.",
    lit "This evidence snapshot is not an autonomous release decision.",
    lit "A report snapshot preserves evidence and limitations but cannot approve " ++ lit "a release."]

/-- The values of `ExecutionResultOutcome`. -/
def executionOutcomes : List Str := [lit "succeeded", lit "failed", lit "cancelled"]

def findingTexts : List Str :=
  Findings.FindingSeverity.all.flatMap fun severity => Findings.FindingCategory.all.map fun category =>
    lit "A " ++ severity.value ++ lit " " ++ category.value ++ lit " finding is recorded."

def executionTexts : List Str :=
  executionOutcomes.map fun outcome =>
    lit "An execution result was recorded as " ++ outcome ++ lit "."

/-- What stands before the numbers of the text of the counts, and at its end. -/
def countTexts : List Str :=
  [lit "Snapshot counts: ", lit " source document version(s), ", lit " requirement analysis run(s), ",
    lit " finding(s), ", lit " generated test case(s), ", lit " execution result(s), ",
    lit " succeeded, ", lit " failed, ", lit " cancelled, and ",
    lit " failure analysis record(s)."]

/-- `fullmatch` of texts with `\d+` between each two; no text begins with a digit. -/
def matchesNumbers (decimal : CodePoint → Option Nat) : List Str → Str → Bool
  | [], s => s = []
  | [text], s => s = text
  | text :: texts, s =>
    text.isPrefixOf s &&
      match s.drop text.length with
      | [] => false
      | c :: rest =>
        (decimal c).isSome && matchesNumbers decimal texts (rest.dropWhile fun c => (decimal c).isSome)

/-- `_TEMPLATE_PATTERNS` -/
def isTemplate (decimal : CodePoint → Option Nat) (text : Str) : Bool :=
  text ∈ findingTexts || text ∈ executionTexts || matchesNumbers decimal countTexts text

end QaCopilot.GuestDemo
