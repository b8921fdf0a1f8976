import QaCopilot.Execution.GeneratedTests
import QaCopilot.GuestDemo.Snapshot
import QaCopilot.Python.Datetime
import QaCopilot.Python.SortedTexts

/-!
# The report of a snapshot

`build_quality_report_snapshot`: the checks of the records, the report that is assembled of them, and
the canonical contract that the report is read back through.
-/

namespace QaCopilot.GuestDemo

open Python

/-! ## Records -/

/-- A citation with what the assembler reads of it beside the snapshot. -/
structure CollectedCitation where
  citation : Citation
  projectId : Uuid
  documentVersionId : Uuid

structure RequirementAnalysisRun where
  id : Uuid
  projectId : Uuid
  citationIds : List Uuid
  findings : List Findings.RequirementFindingV1

structure ScopedExecutionEvidence where
  projectId : Uuid
  id : Uuid
  executionJobId : Uuid
  outcome : Str
  failureCode : Option Str

structure ExecutionFailureAnalysis where
  executionJobId : Uuid
  outcome : Str
  failureCode : Str
  rootCause : Option Str

inductive ExecutionEvidenceState where
  | complete
  | notRun
  | notAvailable
deriving DecidableEq

structure SnapshotInput where
  projectId : Uuid
  sourceDocumentVersionIds : List Uuid
  citations : List CollectedCitation
  requirementAnalysisRuns : List RequirementAnalysisRun
  generatedTestCases : List Execution.GeneratedTestCase
  executionEvidence : List ScopedExecutionEvidence
  failureAnalyses : List ExecutionFailureAnalysis
  executionEvidenceState : ExecutionEvidenceState
  createdAt : Datetime
  generatorVersion : Str

deriving instance DecidableEq for EvidenceReference

/-- `failed_execution_by_job` holds an execution that failed or was cancelled. -/
def ScopedExecutionEvidence.failed (e : ScopedExecutionEvidence) : Bool :=
  e.outcome ∈ [lit "failed", lit "cancelled"]

/-- `sorted(..., key=lambda item: str(item.id))` -/
def sortedById {α : Type} (id : α → Uuid) (l : List α) : List α :=
  sortByTexts (fun a => [uuidText (id a)]) l

def supportedClaim (kind : ClaimKind) (statement : Str) (evidence : List EvidenceReference) : Claim :=
  ⟨kind, statement, evidence, false, none⟩

def unsupportedClaim (statement reason : Str) : Claim := ⟨.unsupported, statement, [], true, some reason⟩

/-- The claim of a finding. -/
def findingClaim (f : Findings.RequirementFindingV1) : Claim :=
  if f.unsupported then
    unsupportedClaim (lit "A persisted finding is explicitly marked unsupported.")
      (lit "The finding record does not establish a supported claim.")
  else
    supportedClaim .analysis
      (lit "A " ++ f.severity.value ++ lit " " ++ f.category.value ++ lit " finding is recorded.")
      (⟨.finding, f.id⟩ :: f.evidence.map fun e => ⟨.citation, e.citationId⟩)

def testClaim (t : Execution.GeneratedTestCase) : Claim :=
  supportedClaim .recommendation
    (lit "A generated test proposal is linked to its finding and citations.")
    (⟨.testCase, t.id⟩ :: ⟨.finding, t.sourceFindingId⟩ :: t.citationIds.map (⟨.citation, ·⟩))

/-- `_evidence_catalog` -/
def evidenceCatalog (citations : List CollectedCitation)
    (findings : List Findings.RequirementFindingV1) (tests : List Execution.GeneratedTestCase)
    (executions : List ScopedExecutionEvidence) (analyses : List ExecutionFailureAnalysis) :
    Except Failure (List EvidenceReference) := do
  let analysed ← analyses.mapM fun a =>
    match executions.find? (·.executionJobId = a.executionJobId) with
    | some e => .ok e.id
    | none => .error .stop
  let references := citations.map (fun c => ⟨.citation, c.citation.id⟩) ++
    findings.map (fun f => ⟨.finding, f.id⟩) ++ tests.map (fun t => ⟨.testCase, t.id⟩) ++
    executions.map (fun e => ⟨.executionResult, e.id⟩) ++ analysed.map (⟨.failureAnalysis, ·⟩)
  return sortByTexts (fun r => [r.kind.value, uuidText r.id]) references

/-- The counts of the findings by severity and category, in their order. -/
def findingCounts (findings : List Findings.RequirementFindingV1) : List FindingCount :=
  let kinds := findings.map fun f => (f.severity.value, f.category.value)
  (sortByTexts (fun k => [k.1, k.2]) kinds.dedup).map fun k => ⟨k.1, k.2, kinds.count k⟩

/-- `statement` -/
def SnapshotSummary.statement (s : SnapshotSummary) : Str :=
  lit "Snapshot counts: " ++ intText s.sourceDocumentVersionCount ++
    lit " source document version(s), " ++ intText s.requirementAnalysisRunCount ++
    lit " requirement analysis run(s), " ++ intText s.findingCount ++ lit " finding(s), " ++
    intText s.generatedTestCaseCount ++ lit " generated test case(s), " ++
    intText s.executionCount ++ lit " execution result(s), " ++ intText s.succeededExecutionCount ++
    lit " succeeded, " ++ intText s.failedExecutionCount ++ lit " failed, " ++
    intText s.cancelledExecutionCount ++ lit " cancelled, and " ++
    intText s.failureAnalysisCount ++ lit " failure analysis record(s)."

/-! ## The canonical contract -/

def sectionNames : List SectionName :=
  [.scope, .sourceInventory, .findings, .generatedTests, .reviewedTests, .traceability,
    .executionEvidence, .failureAnalysis, .metrics, .provenance, .limitations]

/-- The findings of the runs, in the order of the report. -/
def SnapshotInput.findings (input : SnapshotInput) : List Findings.RequirementFindingV1 :=
  sortedById (·.id) ((sortedById (·.id) input.requirementAnalysisRuns).flatMap (·.findings))

/-- The test cases, in the order of the report. -/
def SnapshotInput.tests (input : SnapshotInput) : List Execution.GeneratedTestCase :=
  sortedById (·.id) input.generatedTestCases

end QaCopilot.GuestDemo
