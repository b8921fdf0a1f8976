import QaCopilot.Evaluation.Scoring

/-!
# Two decoders of score reports

`evaluation_score_report_from_json` of the baseline comparison, and `load_evaluation_score_report` of
the B1 assembly, which reads its texts without a change and asks for scores and checks.
-/

namespace QaCopilot.Evaluation

open Python Results

/-! ## Fields of JSON objects -/

def jsonObject : Json → Option (List (Str × Json))
  | .dict items => some items
  | _ => none

/-- The value of a key; the decoders ask for keys that they have checked. -/
def jsonField (items : List (Str × Json)) (key : String) : Json :=
  ((items.find? (·.1 = lit key)).map (·.2)).getD .null

/-- `f"{label} fields must be exactly {sorted(expected)}"` of other fields. -/
def requireFields (items : List (Str × Json)) (expected : List String) (label : String) :
    Checked Unit :=
  rejectWhen (!decide (items.map (·.1) ⊆ expected.map lit ∧ expected.map lit ⊆ items.map (·.1)))
    (label ++ " fields must be exactly [" ++ ", ".intercalate
      ((expected.insertionSort fun a b => Str.le (lit a) (lit b)).map fun s => "'" ++ s ++ "'") ++ "]")

/-- The errors of a decoder: its rejection, and the `ValueError` and `RecursionError` of
`json.loads`. -/
inductive ReportError where
  | rejected (r : Rejection)
  | value
  | recursion
  | overflow
deriving DecidableEq

def ofChecked {α : Type} : Checked α → Except ReportError α
  | .ok a => .ok a
  | .error (.rejected r) => .error (.rejected r)
  | .error .overflow => .error .overflow

/-! ## The baseline comparison -/

namespace Baseline

/-- `_json_mapping` -/
def mapping (value : Json) (label : String) : Checked (List (Str × Json)) :=
  match jsonObject value with
  | some items => .ok items
  | none => reject (label ++ " must be a mapping with string keys")

/-- `_json_list` -/
def items (value : Json) (label : String) : Checked (List Json) :=
  match value with
  | .list xs => .ok xs
  | _ => reject (label ++ " must be a list")

/-- `_json_text` -/
def text (value : Json) (label : String) : Checked Str :=
  match value with
  | .str s => if strip s = [] then reject (label ++ " must be non-empty text") else .ok (strip s)
  | _ => reject (label ++ " must be non-empty text")

/-- `_json_boolean` -/
def boolean (value : Json) (label : String) : Checked Bool :=
  match value with
  | .bool b => .ok b
  | _ => reject (label ++ " must be boolean")

/-- `_json_sha256` -/
def sha256 (value : Json) (label : String) : Checked Str := do
  let s ← text value label
  rejectWhen (!isDigest s) (label ++ " must be a lowercase SHA-256 value")
  return s

/-- `_check_from_json_mapping` -/
def checkFromJson (value : Json) (label : String) : Checked EvaluationScoreCheck := do
  let check ← mapping value label
  requireFields check checkKeys label
  let code ← text (jsonField check "code") (label ++ ".code")
  let passed ← boolean (jsonField check "passed") (label ++ ".passed")
  return ⟨code, passed, .json (jsonField check "expected"), .json (jsonField check "actual")⟩

/-- `_score_from_json_mapping` -/
def scoreFromJson (value : Json) (label : String) : Checked EvaluationScore := do
  let score ← mapping value label
  requireFields score scoreKeys label
  let values ← items (jsonField score "checks") (label ++ ".checks")
  let checks ← values.zipIdx.mapM fun i => checkFromJson i.1 (indexed (label ++ ".checks") i.2)
  let caseId ← text (jsonField score "case_id") (label ++ ".case_id")
  let scorerVersion ← text (jsonField score "scorer_version") (label ++ ".scorer_version")
  let passed ← boolean (jsonField score "passed") (label ++ ".passed")
  rejectWhen (passed ≠ checks.all (·.passed)) (label ++ ".passed does not match its checks")
  return ⟨caseId, scorerVersion, passed, checks⟩

/-- The part of `evaluation_score_report_from_json` after the JSON decoder. -/
def reportFromJson (raw : Json) : Checked EvaluationScoreReport := do
  let report ← mapping raw "Evaluation score report"
  requireFields report scoreReportKeys "Evaluation score report"
  let values ← items (jsonField report "scores") "scores"
  let scores ← values.zipIdx.mapM fun i => scoreFromJson i.1 (indexed "scores" i.2)
  let schemaVersion ← text (jsonField report "schema_version") "schema_version"
  let scorerVersion ← text (jsonField report "scorer_version") "scorer_version"
  let suiteId ← text (jsonField report "suite_id") "suite_id"
  let caseFixtureSha256 ← sha256 (jsonField report "case_fixture_sha256") "case_fixture_sha256"
  let groundTruthSha256 ← sha256 (jsonField report "ground_truth_sha256") "ground_truth_sha256"
  let runSha256 ← sha256 (jsonField report "run_sha256") "run_sha256"
  let passed ← boolean (jsonField report "passed") "passed"
  rejectWhen (schemaVersion ≠ evaluationScoreReportSchemaVersion)
    "Evaluation score report has an unsupported schema version"
  rejectWhen (passed ≠ scores.all (·.passed))
    "Evaluation score report passed status does not match its scores"
  return ⟨schemaVersion, scorerVersion, suiteId, caseFixtureSha256, groundTruthSha256, runSha256,
    passed, scores⟩

end Baseline

/-- `evaluation_score_report_from_json` -/
def evaluationScoreReportFromJson (limit : Nat) (payload : Str) :
    Except ReportError EvaluationScoreReport :=
  match loads limit payload with
  | .ok raw => ofChecked (Baseline.reportFromJson raw)
  | .error .decode => .error (.rejected (.message "Evaluation score report must be valid JSON"))
  | .error .value => .error .value
  | .error .recursion => .error .recursion

/-! ## The B1 assembly -/

namespace Assembly

/-- `_mapping` -/
def mapping (value : Json) (label : String) : Checked (List (Str × Json)) :=
  match jsonObject value with
  | some items => .ok items
  | none => reject (label ++ " must be a JSON object")

/-- `_text` -/
def text (value : Json) (label : String) : Checked Str :=
  match value with
  | .str s => if s = [] ∨ strip s ≠ s then reject (label ++ " must be non-empty text") else .ok s
  | _ => reject (label ++ " must be non-empty text")

/-- `_sha256` -/
def sha256 (value : Json) (label : String) : Checked Str := do
  let s ← text value label
  rejectWhen (!isDigest s) (label ++ " must be a SHA-256 digest")
  return s

/-- `_boolean` -/
def boolean (value : Json) (label : String) : Checked Bool :=
  match value with
  | .bool b => .ok b
  | _ => reject (label ++ " must be a boolean")

/-- A list that holds something. -/
def someItems (value : Json) (message : String) : Checked (List Json) :=
  match value with
  | .list (x :: xs) => .ok (x :: xs)
  | _ => reject message

/-- `_score_check`; `_json_value` takes every value that JSON can hold, and sorts its keys. -/
def scoreCheck (value : Json) : Checked EvaluationScoreCheck := do
  let record ← mapping value "score check"
  requireFields record checkKeys "score check"
  let code ← text (jsonField record "code") "score check code"
  let passed ← boolean (jsonField record "passed") "score check passed"
  return ⟨code, passed, .json (jsonField record "expected").sorted,
    .json (jsonField record "actual").sorted⟩

/-- `_score` -/
def score (value : Json) : Checked EvaluationScore := do
  let record ← mapping value "score"
  requireFields record scoreKeys "score"
  let scorer ← text (jsonField record "scorer_version") "score.scorer_version"
  rejectWhen (scorer ≠ deterministicScorerVersion) "Unsupported score scorer"
  let values ← someItems (jsonField record "checks") "Score must contain checks"
  let checks ← values.mapM scoreCheck
  let passed ← boolean (jsonField record "passed") "score.passed"
  rejectWhen (passed ≠ checks.all (·.passed)) "Score passed flag does not match checks"
  let caseId ← text (jsonField record "case_id") "case_id"
  return ⟨caseId, deterministicScorerVersion, passed, checks⟩

/-- The part of `load_evaluation_score_report` after the JSON decoder. -/
def reportFromJson (value : Json) : Checked EvaluationScoreReport := do
  let raw ← mapping value "Evaluation score report"
  requireFields raw scoreReportKeys "Evaluation score report"
  let schema ← text (jsonField raw "schema_version") "schema_version"
  rejectWhen (schema ≠ evaluationScoreReportSchemaVersion)
    "Unsupported evaluation score report schema"
  let scorer ← text (jsonField raw "scorer_version") "scorer_version"
  rejectWhen (scorer ≠ deterministicScorerVersion) "Unsupported evaluation score report scorer"
  let values ← someItems (jsonField raw "scores") "Evaluation score report must contain scores"
  let scores ← values.mapM score
  let passed ← boolean (jsonField raw "passed") "passed"
  rejectWhen (passed ≠ scores.all (·.passed))
    "Evaluation score report passed flag does not match scores"
  let suiteId ← text (jsonField raw "suite_id") "suite_id"
  let caseFixtureSha256 ← sha256 (jsonField raw "case_fixture_sha256") "case_fixture_sha256"
  let groundTruthSha256 ← sha256 (jsonField raw "ground_truth_sha256") "ground_truth_sha256"
  let runSha256 ← sha256 (jsonField raw "run_sha256") "run_sha256"
  return ⟨evaluationScoreReportSchemaVersion, deterministicScorerVersion, suiteId, caseFixtureSha256,
    groundTruthSha256, runSha256, passed, scores⟩

end Assembly

/-- `load_evaluation_score_report` of a file with this text. -/
def loadEvaluationScoreReport (limit : Nat) (text : Str) : Except ReportError EvaluationScoreReport :=
  match loads limit text with
  | .ok value => ofChecked (Assembly.reportFromJson value)
  | .error .decode => .error (.rejected (.message "Evaluation score report is not valid JSON"))
  | .error .value => .error .value
  | .error .recursion => .error .recursion

end QaCopilot.Evaluation
