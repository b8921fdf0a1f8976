import QaCopilot.Evaluation.Fields
import QaCopilot.Python.Dict

/-!
# Evaluation cases

The suite that `load_evaluation_case_suite` makes of a YAML document, the filters that select its
cases, and the digest of a case.
-/

namespace QaCopilot.Evaluation

open Python

def evaluationCasesSchemaVersion : Str := lit "evaluation-cases/v1"

def sideEffectsSchemaVersion : Str := lit "side-effects/v1"

/-- `SIDE_EFFECT_FIELD_NAMES` -/
def sideEffectFieldNames : List String :=
  ["chunks", "embeddings", "model_calls", "execution_candidates", "automatic_retries",
    "dns_requests", "http_requests", "execution_plans", "target_configuration_mutations",
    "approval_mutations", "secret_exposures"]

/-- `sorted(SIDE_EFFECT_FIELD_NAMES)` -/
def sortedFieldNames : List String :=
  sideEffectFieldNames.insertionSort fun a b => Str.le (lit a) (lit b)

def validSplits : List Str := [lit "development", lit "validation", lit "holdout"]

def validCriticalities : List Str := [lit "low", lit "medium", lit "high", lit "critical"]

structure EvaluationArtifact where
  artifactId : Str
  path : Str
  sha256 : Str
deriving DecidableEq

structure EvaluationInputs where
  artifacts : List EvaluationArtifact
  overlays : List EvaluationArtifact
  userRequest : Str
deriving DecidableEq

structure EvaluationExpected where
  requiredGroundTruthIds : List Str
  prohibitedGroundTruthIds : List Str
  expectedSourceReferences : List Str
  policyBoundary : Str
  sideEffects : Dict Str Int
  scorerVersion : Str
  maximumExpectedCost : IntOrFloat

structure EvaluationCase where
  id : Str
  version : Int
  split : Str
  category : Str
  tags : List Str
  criticality : Str
  runMode : Str
  sideEffectSchema : Str
  inputs : EvaluationInputs
  expected : EvaluationExpected

/-- A suite has a case id once: the loader refuses any other. -/
structure EvaluationCaseSuite where
  schemaVersion : Str
  suiteId : Str
  cases : List EvaluationCase
  distinct : (cases.map (·.id)).Nodup

/-! ## The side effects by name -/

theorem sortedFieldNames_perm : sortedFieldNames.Perm sideEffectFieldNames :=
  List.perm_insertionSort _ _

theorem nodup_sortedFieldNames : (sortedFieldNames.map lit).Nodup := by
  refine List.Nodup.map lit_injective (sortedFieldNames_perm.nodup_iff.mpr ?_)
  decide

/-- The dictionary of the sorted field names with these values. -/
def byFieldName {ν : Type} (value : String → ν) : Dict Str ν where
  items := sortedFieldNames.map fun name => (lit name, value name)
  distinct := by
    rw [List.map_map]
    exact nodup_sortedFieldNames

/-! ## Loading -/

/-- `_require_non_negative_number` -/
def requireNonNegativeNumber (value : Object) (label : String) : Checked IntOrFloat :=
  requireNumber " must be a non-negative number" value label

def artifactFromMapping (value : Object) (label : String) : Checked EvaluationArtifact := do
  let artifact ← requireMapping value label
  requireExactFields artifact [lit "artifact_id", lit "path", lit "sha256"] label
  let sha256 ← requireSha256 (artifact.get "sha256") (label ++ ".sha256")
  let artifactId ← requireText (artifact.get "artifact_id") (label ++ ".artifact_id")
  let path ← requireText (artifact.get "path") (label ++ ".path")
  return ⟨artifactId, path, sha256⟩

def indexed (label : String) (index : Nat) : String :=
  label ++ "[" ++ Nat.repr index ++ "]"

def artifactsFromList (value : Object) (label : String) (nonEmpty : Bool) :
    Checked (List EvaluationArtifact) := do
  let records ← requireList value label
  rejectWhen (nonEmpty && records.isEmpty) (label ++ " must contain at least one artifact")
  records.zipIdx.mapM fun (item, index) => artifactFromMapping item (indexed label index)

def inputsFromMapping (value : Object) (caseLabel : String) : Checked EvaluationInputs := do
  let label := caseLabel ++ ".inputs"
  let inputs ← requireMapping value label
  requireExactFields inputs [lit "artifacts", lit "overlays", lit "user_request"] label
  let artifacts ← artifactsFromList (inputs.get "artifacts") (label ++ ".artifacts") true
  let overlays ← artifactsFromList (inputs.get "overlays") (label ++ ".overlays") false
  rejectWhen (!decide ((artifacts ++ overlays).map (·.artifactId)).Nodup)
    (label ++ " contains duplicate artifact IDs")
  let userRequest ← requireText (inputs.get "user_request") (label ++ ".user_request")
  return ⟨artifacts, overlays, userRequest⟩

/-- The counts of the side effects, read in the order of their sorted names. -/
def readCounts (effects : Fields) (label : String) : Checked (String → Int) := do
  let values ← sortedFieldNames.mapM fun name =>
    requireNonNegativeInteger (effects.get name) (label ++ "." ++ name)
  return fun name => ((sortedFieldNames.zip values).lookup name).getD 0

def sideEffectsFromMapping (value : Object) (label : String) : Checked (Dict Str Int) := do
  let effects ← requireMapping value label
  requireExactFields effects (sideEffectFieldNames.map lit) label
  let counts ← readCounts effects label
  return byFieldName counts

def expectedFromMapping (value : Object) (caseLabel : String) : Checked EvaluationExpected := do
  let label := caseLabel ++ ".expected"
  let expected ← requireMapping value label
  requireExactFields expected [lit "required_ground_truth_ids", lit "prohibited_ground_truth_ids",
    lit "expected_source_references", lit "policy_boundary", lit "side_effects",
    lit "scorer_version", lit "maximum_expected_cost"] label
  let required ← requireDistinctTextList (expected.get "required_ground_truth_ids")
    (label ++ ".required_ground_truth_ids") false
  let prohibited ← requireDistinctTextList (expected.get "prohibited_ground_truth_ids")
    (label ++ ".prohibited_ground_truth_ids") false
  rejectWhen (required.any (· ∈ prohibited))
    (label ++ " cannot require and prohibit the same ground-truth ID")
  let references ← requireDistinctTextList (expected.get "expected_source_references")
    (label ++ ".expected_source_references") false
  let boundary ← requireText (expected.get "policy_boundary") (label ++ ".policy_boundary")
  let sideEffects ← sideEffectsFromMapping (expected.get "side_effects") (label ++ ".side_effects")
  let scorerVersion ← requireText (expected.get "scorer_version") (label ++ ".scorer_version")
  let cost ← requireNonNegativeNumber (expected.get "maximum_expected_cost")
    (label ++ ".maximum_expected_cost")
  return ⟨required, prohibited, references, boundary, sideEffects, scorerVersion, cost⟩

def caseFields : List Str :=
  [lit "id", lit "version", lit "split", lit "category", lit "tags", lit "criticality",
    lit "run_mode", lit "side_effect_schema", lit "inputs", lit "expected"]

def caseFromMapping (value : Object) (index : Nat) : Checked EvaluationCase := do
  let label := indexed "cases" index
  let record ← requireMapping value label
  requireExactFields record caseFields label
  let id ← requireText (record.get "id") (label ++ ".id")
  let version ← requirePositiveInteger (record.get "version") (label ++ ".version")
  let split ← requireText (record.get "split") (label ++ ".split")
  rejectValueWhen (split ∉ validSplits) (label ++ ".split is unsupported: ") split
  let criticality ← requireText (record.get "criticality") (label ++ ".criticality")
  rejectValueWhen (criticality ∉ validCriticalities) (label ++ ".criticality is unsupported: ")
    criticality
  let schema ← requireText (record.get "side_effect_schema") (label ++ ".side_effect_schema")
  rejectWhen (schema ≠ sideEffectsSchemaVersion) (label ++ " must use side-effects/v1")
  let category ← requireText (record.get "category") (label ++ ".category")
  let tags ← requireDistinctTextList (record.get "tags") (label ++ ".tags") true
  let runMode ← requireText (record.get "run_mode") (label ++ ".run_mode")
  let inputs ← inputsFromMapping (record.get "inputs") label
  let expected ← expectedFromMapping (record.get "expected") label
  return ⟨id, version, split, category, tags, criticality, runMode, schema, inputs, expected⟩

/-- `load_evaluation_case_suite` of the object that the YAML loader built. -/
def loadEvaluationCaseSuite (raw : Object) : Checked EvaluationCaseSuite := do
  let suite ← requireMapping raw "Evaluation-case suite"
  requireExactFields suite [lit "schema_version", lit "suite_id", lit "cases"]
    "Evaluation-case suite"
  let schemaVersion ← requireText (suite.get "schema_version") "schema_version"
  rejectWhen (schemaVersion ≠ evaluationCasesSchemaVersion)
    "Unsupported evaluation-case schema version"
  let suiteId ← requireText (suite.get "suite_id") "suite_id"
  let records ← requireList (suite.get "cases") "cases"
  rejectWhen records.isEmpty "Evaluation-case suite must declare at least one case"
  let cases ← records.zipIdx.mapM fun (record, index) => caseFromMapping record index
  if distinct : (cases.map (·.id)).Nodup then return ⟨schemaVersion, suiteId, cases, distinct⟩
  else reject "Evaluation-case suite contains duplicate case IDs"

/-! ## Filters -/

/-- `_normalise_filter` -/
def normaliseFilter (values : Option (List Str)) (label : String) :
    Checked (Option (List Str)) := do
  match values with
  | none => return none
  | some values =>
    let normalised ← values.mapM fun value => requireText (.str value) (label ++ " filter value")
    rejectWhen normalised.isEmpty (label ++ " filter cannot be empty")
    return some normalised

/-- The filters of a run; an absent one selects every case. -/
structure CaseFilters where
  caseIds : Option (List Str)
  splits : Option (List Str)
  categories : Option (List Str)
  tags : Option (List Str)
  criticalities : Option (List Str)

def CaseFilters.none : CaseFilters := ⟨.none, .none, .none, .none, .none⟩

def filterEvaluationCases (cases : List EvaluationCase) (f : CaseFilters) :
    Checked (List EvaluationCase) := do
  let caseIds ← normaliseFilter f.caseIds "case_ids"
  let splits ← normaliseFilter f.splits "splits"
  let categories ← normaliseFilter f.categories "categories"
  let tags ← normaliseFilter f.tags "tags"
  let criticalities ← normaliseFilter f.criticalities "criticalities"
  return cases.filter fun case =>
    caseIds.all (case.id ∈ ·) && splits.all (case.split ∈ ·) &&
      categories.all (case.category ∈ ·) && tags.all (· ⊆ case.tags) &&
      criticalities.all (case.criticality ∈ ·)

/-! ## The digest of a case -/

def texts (values : List Str) : Json := .list (values.map .str)

def EvaluationArtifact.toJson (a : EvaluationArtifact) : Json :=
  .dict [(lit "artifact_id", .str a.artifactId), (lit "path", .str a.path),
    (lit "sha256", .str a.sha256)]

/-- `asdict(case)` -/
def EvaluationCase.toJson (c : EvaluationCase) : Json :=
  .dict [
    (lit "id", .str c.id),
    (lit "version", .int c.version),
    (lit "split", .str c.split),
    (lit "category", .str c.category),
    (lit "tags", texts c.tags),
    (lit "criticality", .str c.criticality),
    (lit "run_mode", .str c.runMode),
    (lit "side_effect_schema", .str c.sideEffectSchema),
    (lit "inputs", .dict [
      (lit "artifacts", .list (c.inputs.artifacts.map (·.toJson))),
      (lit "overlays", .list (c.inputs.overlays.map (·.toJson))),
      (lit "user_request", .str c.inputs.userRequest)]),
    (lit "expected", .dict [
      (lit "required_ground_truth_ids", texts c.expected.requiredGroundTruthIds),
      (lit "prohibited_ground_truth_ids", texts c.expected.prohibitedGroundTruthIds),
      (lit "expected_source_references", texts c.expected.expectedSourceReferences),
      (lit "policy_boundary", .str c.expected.policyBoundary),
      (lit "side_effects", .dict (c.expected.sideEffects.items.map fun i => (i.1, .int i.2))),
      (lit "scorer_version", .str c.expected.scorerVersion),
      (lit "maximum_expected_cost", c.expected.maximumExpectedCost.toJson)])]

/-- `ensure_ascii=True, allow_nan=True, separators=(",", ":")`. -/
def caseDumps : DumpsOptions := ⟨true, true, lit ",", lit ":"⟩

/-- `evaluation_case_sha256`: it fails on a number of too many digits. A case nests four containers,
which no recursion limit refuses. -/
def evaluationCaseSha256 (sha256 : Bytes → BitVec 256) (c : EvaluationCase) :
    Except DumpsError Str := do
  let text ← dumps caseDumps c.toJson.depth c.toJson.sorted
  match utf8 text with
  | some bytes => return hexdigest (sha256 bytes)
  | none => .error .value

end QaCopilot.Evaluation
