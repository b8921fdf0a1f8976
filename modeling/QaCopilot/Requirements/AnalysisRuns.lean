import QaCopilot.Lib.Table
import QaCopilot.Requirements.Analysis

/-!
# Analysis runs

The repository of `requirements_analysis.py`, in which the identifier of a finding is the primary
key of one table for all runs of all projects, and the service that stores what the rules find.

* `analyze_succeeds_iff`: an analysis is stored and read back exactly when none of its findings is
  stored already;
* `covered_citations_refused`: so the citations of an earlier run are refused.
-/

namespace QaCopilot.Requirements

open QaCopilot.Python QaCopilot.Findings QaCopilot.Results QaCopilot.Runs QaCopilot.Table

/-- `ValueError` by its message, `RequirementAnalysisUnavailable`, and what the validation of a
finding raises. -/
inductive AnalysisError where
  | value (message : String)
  | unavailable
  | finding (error : FindingError)
deriving DecidableEq

structure RunRecord where
  id : Uuid
  projectId : Uuid
  analyzerVersion : Str
  citationIds : List Str
  createdAt : Nat

structure FindingRecord where
  id : Uuid
  projectId : Uuid
  requirementAnalysisRunId : Uuid
  category : Str
  severity : Str
  evidence : Json
  analysis : Str
  confidence : PyFloat
  recommendation : Str
  unsupported : Bool
  unsupportedReason : Option Str
  createdAt : Nat

structure RequirementAnalysisRun where
  id : Uuid
  projectId : Uuid
  analyzerVersion : Str
  citationIds : List Uuid
  findings : List RequirementFindingV1
  createdAt : Nat

/-- The tables that an analysis reads and writes. -/
structure Store where
  citations : List Citation
  runs : List RunRecord
  findings : List FindingRecord

def Store.empty : Store := ⟨[], [], []⟩

/-- What an analysis runs on. -/
structure Runtime where
  tables : Tables
  sha1 : Bytes → BitVec 160

def analyzerVersion : Str := lit "requirement-quality-rules/v1"

/-! ## Rows -/

/-- `sorted(findings, key=lambda finding: str(finding.id))` -/
def orderedFindings (findings : List RequirementFindingV1) : List RequirementFindingV1 :=
  findings.insertionSort fun a b => a.id ≤ b.id

/-- `evidence_for_storage` -/
def evidenceForStorage (f : RequirementFindingV1) : Json :=
  .list (f.evidence.map FindingEvidence.asPayload)

def findingRecord (projectId runId : Uuid) (now : Nat) (f : RequirementFindingV1) :
    FindingRecord where
  id := f.id
  projectId := projectId
  requirementAnalysisRunId := runId
  category := f.category.value
  severity := f.severity.value
  evidence := evidenceForStorage f
  analysis := f.analysis
  confidence := f.confidence
  recommendation := f.recommendation
  unsupported := f.unsupported
  unsupportedReason := f.unsupportedReason
  createdAt := now

/-- `finding_from_record` -/
def findingFromRecord (decimal : CodePoint → Option Nat) (r : FindingRecord) :
    Except FindingError RequirementFindingV1 :=
  validateRequirementFinding decimal
    [(lit "schema_version", .str requirementFindingSchemaVersion),
      (lit "id", .str (uuidText r.id)),
      (lit "category", .str r.category),
      (lit "severity", .str r.severity),
      (lit "evidence", r.evidence),
      (lit "analysis", .str r.analysis),
      (lit "confidence", .float r.confidence),
      (lit "recommendation", .str r.recommendation),
      (lit "unsupported", .bool r.unsupported),
      (lit "unsupported_reason", optionalStr r.unsupportedReason)]

/-! ## Repository -/

/-- `create`, in one transaction; a primary key that is taken undoes it. -/
def create (s : Store) (runId : Uuid) (now : Nat) (projectId : Uuid) (citationIds : List Uuid)
    (findings : List RequirementFindingV1) : Except AnalysisError RequirementAnalysisRun × Store :=
  let ordered := orderedFindings findings
  let rows := ordered.map (findingRecord projectId runId now)
  if s.runs.any (·.id = runId) || rows.any (fun r => s.findings.any (·.id = r.id)) ||
      !decide (rows.map (·.id)).Nodup then
    (.error .unavailable, s)
  else
    (.ok ⟨runId, projectId, analyzerVersion, citationIds, ordered, now⟩,
      { s with
        runs := s.runs ++ [⟨runId, projectId, analyzerVersion, citationIds.map uuidText, now⟩]
        findings := s.findings ++ rows })

/-- The findings of a run, `ORDER BY id`. -/
def Store.findingRows (s : Store) (projectId runId : Uuid) : List FindingRecord :=
  (s.findings.filter fun r => r.requirementAnalysisRunId = runId && r.projectId = projectId)
    |>.insertionSort fun a b => a.id ≤ b.id

/-- `get_for_project` -/
def getForProject (decimal : CodePoint → Option Nat) (s : Store) (projectId runId : Uuid) :
    Except AnalysisError (Option RequirementAnalysisRun) :=
  match s.runs.find? fun r => r.id = runId && r.projectId = projectId with
  | none => .ok none
  | some run =>
    match run.citationIds.mapM (parseUuid decimal),
        (s.findingRows projectId run.id).mapM (findingFromRecord decimal) with
    | some citationIds, .ok findings =>
      .ok (some ⟨run.id, run.projectId, run.analyzerVersion, citationIds, findings, run.createdAt⟩)
    | _, _ => .error .unavailable

/-- `get_for_project` of the citations. -/
def Store.citation (s : Store) (projectId citationId : Uuid) : Option Citation :=
  s.citations.find? fun c => c.id = citationId && c.projectId = projectId

/-! ## Service -/

def refuseIf (c : Bool) (message : String) : Except AnalysisError Unit :=
  if c then .error (.value message) else .ok ()

/-- What `analyze` does before it calls `create`. -/
def prepare (rt : Runtime) (s : Store) (projectId : Uuid) (citationIds : List Uuid) :
    Except AnalysisError (List RequirementFindingV1) := do
  refuseIf (citationIds = []) "At least one citation is required"
  refuseIf (¬ citationIds.Nodup) "Citation IDs must not repeat"
  match citationIds.mapM (s.citation projectId) with
  | none => .error (.value "Citation not found")
  | some citations =>
    ((analyzeCitations rt.tables rt.sha1 citations).mapM fun f =>
      validateRequirementFinding rt.tables.decimal f.asPayload).mapError .finding

/-- `analyze`, where `uuid4` gives `runId` and the clock `now`. -/
def analyze (rt : Runtime) (s : Store) (runId : Uuid) (now : Nat) (projectId : Uuid)
    (citationIds : List Uuid) : Except AnalysisError RequirementAnalysisRun × Store :=
  match prepare rt s projectId citationIds with
  | .error e => (.error e, s)
  | .ok findings => create s runId now projectId citationIds findings

/-- A citation is created elsewhere, or an analysis is asked for. -/
inductive Call where
  | cite (c : Citation)
  | analyze (runId : Uuid) (now : Nat) (projectId : Uuid) (citationIds : List Uuid)

def step (rt : Runtime) (s : Store) : Call → Store
  | .cite c =>
    if s.citations.any (·.id = c.id) then s else { s with citations := s.citations ++ [c] }
  | .analyze runId now projectId citationIds =>
    (analyze rt s runId now projectId citationIds).2

/-! ## One analysis -/

/-- A set of citations of the project. -/
structure Cited (s : Store) (projectId : Uuid) (citationIds : List Uuid) (citations : List Citation) :
    Prop where
  some' : citationIds ≠ []
  distinct : citationIds.Nodup
  found : citationIds.mapM (s.citation projectId) = some citations

theorem prepare_cited {rt : Runtime} {s : Store} {projectId : Uuid} {citationIds : List Uuid}
    {citations : List Citation} (cited : Cited s projectId citationIds citations) :
    prepare rt s projectId citationIds = .ok (analyzeCitations rt.tables rt.sha1 citations) := by
  have validated : ((analyzeCitations rt.tables rt.sha1 citations).mapM fun f =>
      validateRequirementFinding rt.tables.decimal f.asPayload) =
        .ok (analyzeCitations rt.tables rt.sha1 citations) :=
    mapM_self fun f hf => validate_asPayload rt.tables.decimal (analyzeCitations_valid f hf)
  rw [prepare, cited.found]
  simp only [refuseIf, cited.some', cited.distinct, validated]
  rfl

/-- The primary keys that `create` would write are free. -/
def Free (s : Store) (runId : Uuid) (findings : List RequirementFindingV1) : Prop :=
  runId ∉ s.runs.map (·.id) ∧ (∀ f ∈ findings, f.id ∉ s.findings.map (·.id)) ∧
    (findings.map (·.id)).Nodup

theorem mem_orderedFindings {findings : List RequirementFindingV1} {f : RequirementFindingV1} :
    f ∈ orderedFindings findings ↔ f ∈ findings :=
  (List.perm_insertionSort _ findings).mem_iff

section
variable (s : Store) (runId : Uuid) (now : Nat) (projectId : Uuid) (citationIds : List Uuid)
  (findings : List RequirementFindingV1)

/-- The store after the run is written. -/
def Store.stored : Store :=
  { s with
    runs := s.runs ++ [⟨runId, projectId, analyzerVersion, citationIds.map uuidText, now⟩]
    findings := s.findings ++ (orderedFindings findings).map (findingRecord projectId runId now) }

theorem create_free (free : Free s runId findings) :
    create s runId now projectId citationIds findings =
      (.ok ⟨runId, projectId, analyzerVersion, citationIds, orderedFindings findings, now⟩,
        s.stored runId now projectId citationIds findings) := by
  obtain ⟨run, fresh, distinct⟩ := free
  rw [create, if_neg]
  · rfl
  · have keys : (((orderedFindings findings).map (findingRecord projectId runId now)).map
        (·.id)).Nodup := by
      rw [List.map_map]
      exact ((List.perm_insertionSort _ findings).map _).nodup_iff.mpr distinct
    simp only [Bool.or_eq_true, List.any_eq_true, decide_eq_true_eq, Bool.not_eq_true',
      decide_eq_false_iff_not, not_or, not_exists, not_and, not_not]
    refine ⟨⟨?_, ?_⟩, keys⟩
    · intro r hr same
      exact run (List.mem_map.mpr ⟨r, hr, same⟩)
    · intro row hrow r hr same
      obtain ⟨f, hf, rfl⟩ := List.mem_map.mp hrow
      exact fresh f (mem_orderedFindings.mp hf) (List.mem_map.mpr ⟨r, hr, same⟩)

theorem create_taken (taken : ¬ Free s runId findings) :
    create s runId now projectId citationIds findings = (.error .unavailable, s) := by
  rw [create, if_pos]
  by_contra free
  apply taken
  simp only [Bool.or_eq_true, List.any_eq_true, decide_eq_true_eq, Bool.not_eq_true',
    decide_eq_false_iff_not, not_or, not_exists, not_and, not_not] at free
  obtain ⟨⟨run, fresh⟩, keys⟩ := free
  refine ⟨?_, ?_, ?_⟩
  · intro h
    obtain ⟨r, hr, same⟩ := List.mem_map.mp h
    exact run r hr same
  · intro f hf h
    obtain ⟨r, hr, same⟩ := List.mem_map.mp h
    exact fresh _ (List.mem_map_of_mem (mem_orderedFindings.mpr hf)) r hr same
  · rw [List.map_map] at keys
    exact ((List.perm_insertionSort _ findings).map _).nodup_iff.mp keys

end

/-! ## Reachable stores -/

/-- Every finding belongs to a run of the table. -/
def Owned (s : Store) : Prop :=
  ∀ r ∈ s.findings, r.requirementAnalysisRunId ∈ s.runs.map (·.id)

theorem stored_owned {s : Store} (owned : Owned s) (runId : Uuid) (now : Nat) (projectId : Uuid)
    (citationIds : List Uuid) (findings : List RequirementFindingV1) :
    Owned (s.stored runId now projectId citationIds findings) := by
  intro r hr
  simp only [Store.stored, List.map_append, List.mem_append] at hr ⊢
  rcases hr with hr | hr
  · exact .inl (owned r hr)
  · obtain ⟨f, -, rfl⟩ := List.mem_map.mp hr
    exact .inr (List.mem_singleton_self _)

theorem step_owned {rt : Runtime} {s : Store} (c : Call) (owned : Owned s) :
    Owned (step rt s c) := by
  cases c with
  | cite c =>
    simp only [step]
    split
    · exact owned
    · exact owned
  | analyze runId now projectId citationIds =>
    simp only [step, analyze]
    cases prepare rt s projectId citationIds with
    | error e => exact owned
    | ok findings =>
      by_cases free : Free s runId findings
      · simp only [create_free s runId now projectId citationIds findings free]
        exact stored_owned owned runId now projectId citationIds findings
      · simp only [create_taken s runId now projectId citationIds findings free]
        exact owned

theorem run_owned (rt : Runtime) (calls : List Call) : Owned (run (step rt) .empty calls) := by
  apply run_invariant' (I := Owned)
  · intro s c owned
    exact step_owned c owned
  · intro r hr
    cases hr

/-! ## Reading a run back -/

theorem findingFromRecord_findingRecord (decimal : CodePoint → Option Nat) (projectId runId : Uuid)
    (now : Nat) {f : RequirementFindingV1} (valid : f.Valid) :
    findingFromRecord decimal (findingRecord projectId runId now f) = .ok f :=
  validate_asPayload decimal valid

theorem findingRows_stored {s : Store} (owned : Owned s) {runId : Uuid}
    (fresh : runId ∉ s.runs.map (·.id)) (now : Nat) (projectId : Uuid) (citationIds : List Uuid)
    (findings : List RequirementFindingV1) :
    (s.stored runId now projectId citationIds findings).findingRows projectId runId =
      (orderedFindings findings).map (findingRecord projectId runId now) := by
  have before : s.findings.filter (fun r =>
      r.requirementAnalysisRunId = runId && r.projectId = projectId) = [] := by
    apply List.filter_eq_nil_iff.mpr
    intro r hr same
    simp only [Bool.and_eq_true, decide_eq_true_eq] at same
    exact fresh (same.1 ▸ owned r hr)
  have now' : ((orderedFindings findings).map (findingRecord projectId runId now)).filter (fun r =>
      r.requirementAnalysisRunId = runId && r.projectId = projectId) =
      (orderedFindings findings).map (findingRecord projectId runId now) := by
    apply List.filter_eq_self.mpr
    intro r hr
    obtain ⟨f, -, rfl⟩ := List.mem_map.mp hr
    simp [findingRecord]
  have sorted : ((orderedFindings findings).map (findingRecord projectId runId now)).Pairwise
      fun a b => a.id ≤ b.id := by
    apply List.pairwise_map.mpr
    exact List.pairwise_insertionSort (fun a b : RequirementFindingV1 => a.id ≤ b.id) findings
  rw [Store.findingRows, Store.stored]
  simp only [List.filter_append, before, now', List.nil_append]
  exact List.Pairwise.insertionSort_eq sorted

theorem getForProject_stored (decimal : CodePoint → Option Nat) {s : Store} (owned : Owned s)
    {runId : Uuid} (fresh : runId ∉ s.runs.map (·.id)) (now : Nat) (projectId : Uuid)
    (citationIds : List Uuid) {findings : List RequirementFindingV1}
    (valid : ∀ f ∈ findings, f.Valid) :
    getForProject decimal (s.stored runId now projectId citationIds findings) projectId runId =
      .ok (some ⟨runId, projectId, analyzerVersion, citationIds, orderedFindings findings, now⟩) := by
  have found : (s.stored runId now projectId citationIds findings).runs.find?
      (fun r => r.id = runId && r.projectId = projectId) =
      some ⟨runId, projectId, analyzerVersion, citationIds.map uuidText, now⟩ := by
    have others : s.runs.find? (fun r => r.id = runId && r.projectId = projectId) = none := by
      apply List.find?_eq_none.mpr
      intro r hr same
      simp only [Bool.and_eq_true, decide_eq_true_eq] at same
      exact fresh (List.mem_map.mpr ⟨r, hr, same.1⟩)
    simp [Store.stored, List.find?_append, others]
  have read : ((orderedFindings findings).map (findingRecord projectId runId now)).mapM
      (findingFromRecord decimal) = .ok (orderedFindings findings) := by
    apply mapM_ok.mpr
    rw [List.forall₂_map_left_iff]
    apply List.forall₂_same.mpr
    intro f hf
    exact findingFromRecord_findingRecord decimal projectId runId now
      (valid f (mem_orderedFindings.mp hf))
  simp only [getForProject, found, parseUuid_uuidTexts, findingRows_stored owned fresh, read]

/-! ## A sample -/

/-- The tables on ASCII. -/
def sampleTables : Tables where
  casefold := fun s => s.map fun c => if 0x41 ≤ c.val ∧ c.val ≤ 0x5A then Fin.ofNat _ (c.val + 0x20) else c
  word := fun c => isSubjectHead c || c.val == 0x5F || (0x41 ≤ c.val && c.val ≤ 0x5A)
  decimal := fun c => if isDigit c then some (c.val - 0x30) else none

/-- A requirement without an acceptance criterion. -/
def sampleCitation : Citation where
  id := 10#128
  projectId := 1#128
  passage := ⟨lit "Users must log in.", by decide +kernel⟩

/-- The sample citation is there. -/
def sampleStore : Store := ⟨[sampleCitation], [], []⟩

theorem sampleStore_cite (rt : Runtime) : step rt .empty (.cite sampleCitation) = sampleStore := rfl

theorem sampleStore_reached (rt : Runtime) :
    run (step rt) .empty [.cite sampleCitation] = sampleStore := sampleStore_cite rt

theorem sampleStore_cited : Cited sampleStore 1#128 [10#128] [sampleCitation] :=
  ⟨List.cons_ne_nil _ _, List.nodup_singleton _, rfl⟩

theorem sample_findings (sha1 : Bytes → BitVec 160) :
    analyzeCitations sampleTables sha1 [sampleCitation] =
      [missingAcceptanceCriteria sha1 sampleCitation] := by
  have rules : ∀ terms ∈ [acceptanceMarkers, ambiguousTerms, actionTerms, performanceTerms],
      ∀ term ∈ terms, occursIn term (sampleTables.casefold sampleCitation.passage.text) = false := by
    decide +kernel
  have absent : ∀ terms ∈ [acceptanceMarkers, ambiguousTerms, actionTerms, performanceTerms],
      terms.any (occursIn · (sampleTables.casefold sampleCitation.passage.text)) = false := by
    intro terms h
    rw [List.any_eq_false]
    intro term listed
    simp [rules terms h term listed]
  have none' : ∀ terms ∈ [acceptanceMarkers, ambiguousTerms, actionTerms, performanceTerms],
      terms.filter (fun term => occursIn term (sampleTables.casefold sampleCitation.passage.text) &&
        !hasMeasurableBound sampleTables (sampleTables.casefold sampleCitation.passage.text)) =
        [] := by
    intro terms h
    rw [List.filter_eq_nil_iff]
    intro term listed
    simp [rules terms h term listed]
  have marker : hasRequirementMarker sampleTables.word none
      (sampleTables.casefold sampleCitation.passage.text) = true := by decide +kernel
  have passage : passageFindings sampleTables sha1 sampleCitation =
      [missingAcceptanceCriteria sha1 sampleCitation] := by
    simp only [passageFindings, marker, absent acceptanceMarkers (by simp),
      absent actionTerms (by simp), none' ambiguousTerms (by simp), none' performanceTerms (by simp)]
    rfl
  change [sampleCitation].flatMap (passageFindings sampleTables sha1) ++ [] = _
  rw [List.flatMap_singleton, passage, List.append_nil]

/-! ## Stored exactly when -/

/-- The analysis is stored under its run, which is read back with exactly the findings of the
rules. -/
def Stored (rt : Runtime) (s : Store) (runId : Uuid) (now : Nat) (projectId : Uuid)
    (citationIds : List Uuid) (citations : List Citation) : Prop :=
  ∃ r, (analyze rt s runId now projectId citationIds).1 = .ok r ∧ r.id = runId ∧
    r.findings.Perm (analyzeCitations rt.tables rt.sha1 citations) ∧
    getForProject rt.tables.decimal (analyze rt s runId now projectId citationIds).2 projectId
      runId = .ok (some r)

theorem stored_iff_free {rt : Runtime} {s : Store} (owned : Owned s) {projectId : Uuid}
    {citationIds : List Uuid} {citations : List Citation}
    (cited : Cited s projectId citationIds citations) (runId : Uuid) (now : Nat) :
    Stored rt s runId now projectId citationIds citations ↔
      Free s runId (analyzeCitations rt.tables rt.sha1 citations) := by
  rw [Stored, analyze, prepare_cited cited]
  by_cases free : Free s runId (analyzeCitations rt.tables rt.sha1 citations)
  · simp only [create_free s runId now projectId citationIds _ free, free, iff_true]
    exact ⟨_, rfl, rfl, List.perm_insertionSort _ _, getForProject_stored rt.tables.decimal owned
      free.1 now projectId citationIds analyzeCitations_valid⟩
  · simp only [create_taken s runId now projectId citationIds _ free, free, iff_false]
    rintro ⟨r, returned, -⟩
    cases returned

/-- In every reachable store an analysis whose findings have distinct identifiers is stored and
read back exactly when none of them is the identifier of a stored finding. -/
theorem analyze_succeeds_iff {rt : Runtime} {calls : List Call} {s : Store}
    (reached : run (step rt) .empty calls = s) {projectId : Uuid} {citationIds : List Uuid}
    {citations : List Citation} (cited : Cited s projectId citationIds citations)
    (distinct : ((analyzeCitations rt.tables rt.sha1 citations).map (·.id)).Nodup) {runId : Uuid}
    (unused : runId ∉ s.runs.map (·.id)) (now : Nat) :
    Stored rt s runId now projectId citationIds citations ↔
      ∀ f ∈ analyzeCitations rt.tables rt.sha1 citations, f.id ∉ s.findings.map (·.id) := by
  rw [stored_iff_free (reached ▸ run_owned rt calls) cited]
  constructor
  · intro free
    exact free.2.1
  · intro fresh
    exact ⟨unused, fresh, distinct⟩

theorem analyze_succeeds_sample :
    Stored ⟨sampleTables, fun _ => 0⟩ sampleStore 20#128 0 1#128 [10#128] [sampleCitation] ↔
      ∀ f ∈ analyzeCitations sampleTables (fun _ => 0) [sampleCitation],
        f.id ∉ sampleStore.findings.map (·.id) :=
  analyze_succeeds_iff (sampleStore_reached ⟨sampleTables, fun _ => 0⟩) sampleStore_cited
    (by rw [sample_findings]; exact List.nodup_singleton _) (by simp [sampleStore]) 0

/-! ## Analysing again -/

/-- Citations and findings are only appended. -/
def Extends (s t : Store) : Prop :=
  s.citations <+: t.citations ∧ s.findings <+: t.findings

theorem step_extends (rt : Runtime) (s : Store) (c : Call) : Extends s (step rt s c) := by
  cases c with
  | cite c =>
    simp only [step]
    split
    · exact ⟨List.prefix_rfl, List.prefix_rfl⟩
    · exact ⟨List.prefix_append _ _, List.prefix_rfl⟩
  | analyze runId now projectId citationIds =>
    simp only [step, analyze]
    cases prepare rt s projectId citationIds with
    | error e => exact ⟨List.prefix_rfl, List.prefix_rfl⟩
    | ok findings =>
      by_cases free : Free s runId findings
      · simp only [create_free s runId now projectId citationIds findings free]
        exact ⟨List.prefix_rfl, List.prefix_append _ _⟩
      · simp only [create_taken s runId now projectId citationIds findings free]
        exact ⟨List.prefix_rfl, List.prefix_rfl⟩

theorem run_extends (rt : Runtime) (s : Store) (calls : List Call) :
    Extends s (run (step rt) s calls) := by
  apply run_rel (I := fun _ => True) (R := Extends)
  · intro s
    exact ⟨List.prefix_rfl, List.prefix_rfl⟩
  · intro a b c first second
    exact ⟨first.1.trans second.1, first.2.trans second.2⟩
  · intro s c _
    trivial
  · intro s c _
    exact step_extends rt s c
  · trivial

theorem Extends.cited {s t : Store} (later : Extends s t) {projectId : Uuid}
    {citationIds : List Uuid} {citations : List Citation}
    (cited : Cited s projectId citationIds citations) :
    Cited t projectId citationIds citations := by
  have kept : ∀ id c, s.citation projectId id = some c → t.citation projectId id = some c := by
    intro id c found
    obtain ⟨more, eq⟩ := later.1
    rw [Store.citation] at found
    rw [Store.citation, ← eq, List.find?_append, found]
    rfl
  refine ⟨cited.some', cited.distinct, ?_⟩
  have found := cited.found
  clear cited
  induction citationIds generalizing citations with
  | nil => exact found
  | cons id ids ih =>
    rw [List.mapM_cons, Option.bind_eq_bind, Option.bind_eq_some_iff] at found
    obtain ⟨c, first, rest⟩ := found
    rw [Option.bind_eq_bind, Option.bind_eq_some_iff] at rest
    obtain ⟨cs, others, eq⟩ := rest
    rw [List.mapM_cons, kept id c first, Option.bind_eq_bind, Option.bind_some, ih others]
    exact eq

/-- Citations in which an earlier run found something are refused, whatever happened since. -/
theorem analyze_again {rt : Runtime} {s : Store} {projectId : Uuid} {citationIds : List Uuid}
    {citations : List Citation} (cited : Cited s projectId citationIds citations)
    {f : RequirementFindingV1} (found : f ∈ analyzeCitations rt.tables rt.sha1 citations)
    {runId : Uuid} (free : Free s runId (analyzeCitations rt.tables rt.sha1 citations)) (now : Nat)
    (calls : List Call) (runId' : Uuid) (now' : Nat) :
    (analyze rt (run (step rt) (step rt s (.analyze runId now projectId citationIds)) calls) runId'
      now' projectId citationIds).1 = .error .unavailable := by
  have first := step_extends rt s (.analyze runId now projectId citationIds)
  have later := run_extends rt (step rt s (.analyze runId now projectId citationIds)) calls
  have written : f.id ∈ (step rt s (.analyze runId now projectId citationIds)).findings.map
      (·.id) := by
    simp only [step, analyze, prepare_cited cited,
      create_free s runId now projectId citationIds _ free, Store.stored, List.map_append,
      List.mem_append, List.map_map]
    exact .inr (List.mem_map_of_mem (mem_orderedFindings.mpr found))
  have taken : ¬ Free (run (step rt) (step rt s (.analyze runId now projectId citationIds)) calls)
      runId' (analyzeCitations rt.tables rt.sha1 citations) := by
    intro free'
    exact free'.2.1 f found ((later.2.map _).subset written)
  rw [analyze, prepare_cited (later.cited (first.cited cited))]
  simp only [create_taken _ runId' now' projectId citationIds _ taken]

/-- Whatever the hash, the sample citation is analysed once only. -/
theorem covered_citations_refused : ¬ ∃ sha1, ∀ calls projectId citationIds citations runId now,
    Cited (run (step ⟨sampleTables, sha1⟩) .empty calls) projectId citationIds citations →
      ((analyzeCitations sampleTables sha1 citations).map (·.id)).Nodup →
      runId ∉ (run (step ⟨sampleTables, sha1⟩) .empty calls).runs.map (·.id) →
        Stored ⟨sampleTables, sha1⟩ (run (step ⟨sampleTables, sha1⟩) .empty calls) runId now
          projectId citationIds citations := by
  rintro ⟨sha1, always⟩
  have free : Free sampleStore 20#128 (analyzeCitations sampleTables sha1 [sampleCitation]) := by
    rw [sample_findings]
    exact ⟨by simp [sampleStore], by simp [sampleStore], List.nodup_singleton _⟩
  have found : missingAcceptanceCriteria sha1 sampleCitation ∈
      analyzeCitations sampleTables sha1 [sampleCitation] := by
    rw [sample_findings]
    exact List.mem_singleton_self _
  have refused := @analyze_again ⟨sampleTables, sha1⟩ _ _ _ _ sampleStore_cited _ found _ free 0 []
    21#128 1
  have later := (step_extends ⟨sampleTables, sha1⟩ sampleStore
    (.analyze 20#128 0 1#128 [10#128])).cited sampleStore_cited
  have unused : 21#128 ∉ (step ⟨sampleTables, sha1⟩ sampleStore
      (.analyze 20#128 0 1#128 [10#128])).runs.map (·.id) := by
    simp only [step, analyze, prepare_cited sampleStore_cited,
      create_free sampleStore 20#128 0 1#128 [10#128] _ free]
    simp [Store.stored, sampleStore]
  have stored := always [.cite sampleCitation, .analyze 20#128 0 1#128 [10#128]] 1#128 [10#128]
    [sampleCitation] 21#128 1
  rw [run_cons, run_cons, run_nil, sampleStore_cite] at stored
  rw [run_nil] at refused
  generalize step ⟨sampleTables, sha1⟩ sampleStore (.analyze 20#128 0 1#128 [10#128]) = t at *
  obtain ⟨r, returned, -⟩ := stored later
    (by rw [sample_findings]; exact List.nodup_singleton _) unused
  rw [refused] at returned
  exact nomatch returned

end QaCopilot.Requirements
