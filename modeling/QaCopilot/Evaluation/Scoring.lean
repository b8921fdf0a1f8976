import QaCopilot.Evaluation.RunReports
import QaCopilot.Python.SortedTexts

/-!
# Scores of a run

`evaluation_scoring.py`: the score of each observation, the report of a run, and its JSON text.
-/

namespace QaCopilot.Evaluation

open Python Results

def deterministicScorerVersion : Str := lit "deterministic-evaluation-scorer/v1"

def evaluationScoreReportSchemaVersion : Str := lit "evaluation-score-report/v1"

/-- What a score reads of a record. -/
structure GroundTruthRecord where
  id : Str
  sourceArtifacts : List Str

structure GroundTruthCatalog where
  records : List GroundTruthRecord

/-- What `expected` and `actual` hold: a set of texts, or data of JSON. -/
inductive ScoreValue where
  | texts (values : List Str)
  | json (value : Json)

structure EvaluationScoreCheck where
  code : Str
  passed : Bool
  expected : ScoreValue
  actual : ScoreValue

structure EvaluationScore where
  caseId : Str
  scorerVersion : Str
  passed : Bool
  checks : List EvaluationScoreCheck

structure EvaluationScoreReport where
  schemaVersion : Str
  scorerVersion : Str
  suiteId : Str
  caseFixtureSha256 : Str
  groundTruthSha256 : Str
  runSha256 : Str
  passed : Bool
  scores : List EvaluationScore

/-- `EvaluationScoringRejected`, and the exceptions of `json.dumps` and of the files. -/
inductive ScoreError where
  | rejected (r : Rejection)
  | value
  | recursion
  | os
deriving DecidableEq

/-- The files that a score is made of, and `hashlib.sha256`. -/
structure ScoredFiles where
  sha256 : Bytes → BitVec 256
  caseFixture : Option Bytes
  groundTruth : Option Bytes

/-! ## Scores of observations -/

/-- `record_for` -/
def GroundTruthCatalog.recordFor (catalog : GroundTruthCatalog) (groundTruthId : Str) :
    Except ScoreError GroundTruthRecord :=
  match catalog.records.find? (·.id = groundTruthId) with
  | some record => .ok record
  | none => .error (.rejected (.about "Ground-truth record does not exist: " groundTruthId))

/-- A check of two sets. -/
def checkSets (code : Str) (expected actual : List Str) : EvaluationScoreCheck :=
  ⟨code, expected ⊆ actual ∧ actual ⊆ expected, .texts expected, .texts actual⟩

def checkTexts (code : Str) (expected actual : Str) : EvaluationScoreCheck :=
  ⟨code, expected = actual, .json (.str expected), .json (.str actual)⟩

/-- `==` of two dictionaries. -/
def sameEffects (expected : Dict Str Int) (actual : Dict Str IntOrFloat) : Bool :=
  expected.size = actual.size &&
    expected.items.all fun i => (actual.get? i.1).any (IntOrFloat.int i.2).eq

/-- `a <= b` -/
def atMost (a b : IntOrFloat) : Bool := a.lt b || a.eq b

/-- A literal code and the id of a record. -/
def sourceArtifactsCode (groundTruthId : Str) : Str := lit "source_artifacts:" ++ groundTruthId

/-- The checks that every case has. -/
def commonChecks (case : EvaluationCase) (o : EvaluationObservation) (known : List Str) :
    List EvaluationScoreCheck :=
  let expected := case.expected
  let required := expected.requiredGroundTruthIds.dedup
  let prohibited := expected.prohibitedGroundTruthIds.dedup
  let observed := o.groundTruthIds.dedup
  let records := required ++ prohibited.filter (· ∉ required)
  let references := expected.expectedSourceReferences.dedup
  [checkSets (lit "known_expected_ground_truth_ids") records (records.filter (· ∈ known)),
    checkSets (lit "required_ground_truth_ids") required (observed.filter (· ∈ required)),
    checkSets (lit "prohibited_ground_truth_ids") [] (observed.filter (· ∈ prohibited)),
    checkSets (lit "unexpected_ground_truth_ids") [] (observed.filter (· ∉ required)),
    checkSets (lit "known_observed_ground_truth_ids") observed (observed.filter (· ∈ known)),
    checkSets (lit "expected_source_references") references
      (references.filter (· ∈ o.sourceReferences)),
    checkTexts (lit "policy_boundary") expected.policyBoundary o.boundary,
    ⟨lit "side_effects", sameEffects expected.sideEffects o.sideEffects,
      .json (.dict (expected.sideEffects.items.map fun i => (i.1, .int i.2))),
      .json (.dict (o.sideEffects.items.map fun i => (i.1, i.2.toJson)))⟩,
    ⟨lit "maximum_expected_cost", atMost o.cost expected.maximumExpectedCost,
      .json expected.maximumExpectedCost.toJson, .json o.cost.toJson⟩]

/-- The check of the artifacts of a record that is known. -/
def artifactsCheck (case : EvaluationCase) (catalog : GroundTruthCatalog) (groundTruthId : Str) :
    Except ScoreError EvaluationScoreCheck := do
  let record ← catalog.recordFor groundTruthId
  let referenced := (case.inputs.artifacts ++ case.inputs.overlays).map (·.artifactId)
  let artifacts := record.sourceArtifacts.dedup
  return checkSets (sourceArtifactsCode groundTruthId) artifacts (artifacts.filter (· ∈ referenced))

/-- `score_evaluation_observation` -/
def scoreEvaluationObservation (case : EvaluationCase) (o : EvaluationObservation)
    (catalog : GroundTruthCatalog) : Except ScoreError EvaluationScore := do
  let known := catalog.records.map (·.id)
  let required := (sortedTexts case.expected.requiredGroundTruthIds.dedup).filter (· ∈ known)
  let artifacts ← required.mapM (artifactsCheck case catalog)
  let checks := commonChecks case o known ++ artifacts
  return ⟨case.id, deterministicScorerVersion, checks.all (·.passed), checks⟩

/-! ## The report of a run -/

def scoreRejectedWhen (c : Bool) (r : Rejection) : Except ScoreError Unit :=
  if c then .error (.rejected r) else .ok ()

/-- `json.dumps` of a run or of a case. -/
def dumped {α : Type} : Except DumpsError α → Except ScoreError α
  | .ok a => .ok a
  | .error .value => .error .value
  | .error .recursion => .error .recursion

/-- `_sha256_file` -/
def sha256File (files : ScoredFiles) : Option Bytes → Except ScoreError Str
  | some content => .ok (hexdigest (files.sha256 content))
  | none => .error .os

/-- `_score_run_result` -/
def scoreRunResult (files : ScoredFiles) (cases : List EvaluationCase) (catalog : GroundTruthCatalog)
    (result : EvaluationRunCaseResult) : Except ScoreError EvaluationScore :=
  match cases.find? (·.id = result.caseId) with
  | none => .error (.rejected (.about "Evaluation run refers to an unknown case: " result.caseId))
  | some case => do
    scoreRejectedWhen (result.caseVersion ≠ case.version)
      (.about "Evaluation run case version differs for " case.id)
    let digest ← dumped (evaluationCaseSha256 files.sha256 case)
    scoreRejectedWhen (result.caseSha256 ≠ digest)
      (.about "Evaluation run case provenance differs for " case.id)
    scoreEvaluationObservation case result.observation catalog

/-- `score_evaluation_run` -/
def scoreEvaluationRun (files : ScoredFiles) (suite : EvaluationCaseSuite) (run : EvaluationRun)
    (catalog : GroundTruthCatalog) : Except ScoreError EvaluationScoreReport := do
  let caseFixtureSha256 ← sha256File files files.caseFixture
  let groundTruthSha256 ← sha256File files files.groundTruth
  scoreRejectedWhen (run.schemaVersion ≠ evaluationRunSchemaVersion)
    (.message "Evaluation run has an unsupported schema version")
  scoreRejectedWhen (run.suiteId ≠ suite.suiteId)
    (.message "Evaluation run belongs to another suite")
  scoreRejectedWhen (run.fixtureSha256 ≠ caseFixtureSha256)
    (.message "Evaluation run fixture provenance does not match")
  scoreRejectedWhen (run.results.map (·.caseId) ≠ run.selectedCaseIds)
    (.message "Evaluation run results do not match the selected-case order")
  let scores ← run.results.mapM (scoreRunResult files suite.cases catalog)
  let runText ← dumped run.asJson
  return {
    schemaVersion := evaluationScoreReportSchemaVersion
    scorerVersion := deterministicScorerVersion
    suiteId := suite.suiteId
    caseFixtureSha256 := caseFixtureSha256
    groundTruthSha256 := groundTruthSha256
    runSha256 := hexdigest (files.sha256 ((utf8 runText).getD []))
    passed := scores.all (·.passed)
    scores := scores }

/-! ## The text of a report -/

/-- The order in which Python iterates over a set. -/
structure SetOrder where
  order : List Str → List Str
  perm : ∀ s, (order s).Perm s

/-- `_json_value` -/
def ScoreValue.toJson (o : SetOrder) : ScoreValue → Json
  | .texts values => Evaluation.texts (sortByTexts (fun s => [dumpsStr caseDumps s]) (o.order values))
  | .json v => v.sorted

def checkKeys : List String := ["code", "passed", "expected", "actual"]

def scoreKeys : List String := ["case_id", "scorer_version", "passed", "checks"]

def scoreReportKeys : List String :=
  ["schema_version", "scorer_version", "suite_id", "case_fixture_sha256", "ground_truth_sha256",
    "run_sha256", "passed", "scores"]

def EvaluationScoreCheck.toItems (o : SetOrder) (c : EvaluationScoreCheck) : List (Str × Json) :=
  [(lit "code", .str c.code), (lit "passed", .bool c.passed), (lit "expected", c.expected.toJson o),
    (lit "actual", c.actual.toJson o)]

def EvaluationScore.toItems (o : SetOrder) (s : EvaluationScore) : List (Str × Json) :=
  [(lit "case_id", .str s.caseId), (lit "scorer_version", .str s.scorerVersion),
    (lit "passed", .bool s.passed), (lit "checks", .list (s.checks.map fun c => .dict (c.toItems o)))]

def EvaluationScoreReport.toItems (o : SetOrder) (r : EvaluationScoreReport) : List (Str × Json) :=
  [(lit "schema_version", .str r.schemaVersion), (lit "scorer_version", .str r.scorerVersion),
    (lit "suite_id", .str r.suiteId), (lit "case_fixture_sha256", .str r.caseFixtureSha256),
    (lit "ground_truth_sha256", .str r.groundTruthSha256), (lit "run_sha256", .str r.runSha256),
    (lit "passed", .bool r.passed), (lit "scores", .list (r.scores.map fun s => .dict (s.toItems o)))]

/-- `EvaluationScoreReport.as_json` -/
def EvaluationScoreReport.asJson (o : SetOrder) (r : EvaluationScoreReport) : Except DumpsError Str := do
  let text ← dumpsIndent reportDumps 2 0 (Json.dict (r.toItems o)).sorted
  return text ++ lit "\n"

end QaCopilot.Evaluation
