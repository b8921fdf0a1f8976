import QaCopilot.Execution.TargetHosts
import QaCopilot.Execution.TestNormalization

/-!
# Execution plans

`execution_plans.py`, with the registry of `target_registry.py` that it asks for a target. A plan holds
the JSON text of a test, and the hash of what the plan does.
-/

namespace QaCopilot.Plans

open Execution Python

def executionPlanSchemaVersion : Str := lit "execution-plan/v1"

def executionPlanNamespace : Uuid := 0x72e8c9f088d44be38f03e43ce5486464#128

def maxRequestTimeoutMs : Nat := 30000

def maxRequestBodyBytes : Nat := 1000000

def maxResponseBytes : Nat := 1000000

def maxPlanAssertions : Nat := 20

/-! ## Targets -/

inductive TargetId where
  | syntheticOrderApi
deriving DecidableEq

def TargetId.value : TargetId → Str
  | .syntheticOrderApi => lit "synthetic-order-api"

def TargetId.all : List TargetId := [.syntheticOrderApi]

/-- A `TargetConfiguration` with its identifier. -/
structure RegisteredTarget where
  id : TargetId
  configuration : TargetConfiguration

structure TargetRegistry where
  targets : List RegisteredTarget
  some' : targets ≠ []
  distinct : (targets.map (·.id)).Nodup

/-- The errors of `__post_init__`: of the registry and of one target. -/
inductive RegistryError where
  | empty
  | duplicate
  | target (e : TargetValidationError)

def TargetRegistry.create (u : Unicode) (urlsplit : Str → Option SplitResult)
    (targets : List RegisteredTarget) : Except RegistryError TargetRegistry :=
  if some' : targets ≠ [] then
    if distinct : (targets.map (·.id)).Nodup then
      match targets.mapM fun t => parseTargetOrigin u urlsplit t.configuration with
      | .ok _ => .ok ⟨targets, some', distinct⟩
      | .error e => .error (.target e)
    else .error .duplicate
  else .error .empty

/-- `get`; none where it raises that the identifier is unknown. -/
def TargetRegistry.get (r : TargetRegistry) (targetId : Str) : Option RegisteredTarget := do
  let expected ← TargetId.all.find? (·.value = targetId)
  r.targets.find? (·.id = expected)

/-! ## Plans -/

structure ExecutionLimits where
  requestTimeoutMs : Int
  maxRequestBodyBytes : Int
  maxResponseBytes : Int
  maxAssertions : Int
deriving DecidableEq

def ExecutionLimits.asPayload (l : ExecutionLimits) : Json :=
  .dict [(lit "request_timeout_ms", .int l.requestTimeoutMs),
    (lit "max_request_body_bytes", .int l.maxRequestBodyBytes),
    (lit "max_response_bytes", .int l.maxResponseBytes), (lit "max_assertions", .int l.maxAssertions)]

/-- `DEFAULT_EXECUTION_LIMITS` -/
def defaultExecutionLimits : ExecutionLimits := ⟨10000, 64000, 256000, maxPlanAssertions⟩

structure ExecutionEstimate where
  requestCount : Int
  requestBodyBytes : Int
  assertionCount : Int
  maximumResponseBytes : Int
  maximumDurationMs : Int
deriving DecidableEq

def ExecutionEstimate.asPayload (e : ExecutionEstimate) : Json :=
  .dict [(lit "request_count", .int e.requestCount), (lit "request_body_bytes", .int e.requestBodyBytes),
    (lit "assertion_count", .int e.assertionCount),
    (lit "maximum_response_bytes", .int e.maximumResponseBytes),
    (lit "maximum_duration_ms", .int e.maximumDurationMs)]

structure ExecutionPlan where
  schemaVersion : Str
  id : Uuid
  targetId : TargetId
  targetBaseUrl : Str
  targetSchemaVersion : Str
  testCaseId : Uuid
  testCasePayload : Str
  limits : ExecutionLimits
  estimate : ExecutionEstimate
  planHash : Str
deriving DecidableEq

/-- `ExecutionPlanRejected`, and what no `except` of the module catches: a number of too many digits and
JSON that nests too deep. -/
inductive PlanError where
  | rejected (message : String)
  | value
  | recursion
deriving DecidableEq

abbrev Planned := Except PlanError

/-- The decimal digits of Unicode, the hashes, and how deep JSON may nest. -/
structure Planner where
  decimal : CodePoint → Option Nat
  sha1 : Bytes → BitVec 160
  sha256 : Bytes → BitVec 256
  recursionLimit : Nat

def notPlanned {α : Type} (message : String) : Planned α := .error (.rejected message)

def notPlannedWhen (c : Prop) [Decidable c] (message : String) : Planned Unit :=
  if c then notPlanned message else .ok ()

section
variable (p : Planner)

/-- `_canonical_json` -/
def canonicalJson (v : Json) : Planned Str :=
  (Execution.canonicalJson p.recursionLimit v).mapError fun
    | .recursion => .recursion
    | _ => .value

/-- `_sha256` of a text, which has ASCII characters only. -/
def sha256Hex (text : Str) : Str := hexdigest (p.sha256 ((utf8 text).getD []))

/-- `_test_case_from_snapshot` -/
def testCaseFromSnapshot (snapshot : Str) : Planned GeneratedTestCase :=
  match loads p.recursionLimit snapshot with
  | .error .decode => notPlanned "Execution plan test-case snapshot is not valid JSON"
  | .error .value => .error .value
  | .error .recursion => .error .recursion
  | .ok (.dict payload) =>
    (validateGeneratedTestCase p.decimal (Json.toItems payload)).mapError fun _ =>
      .rejected "Execution plan test-case snapshot violates the generated-test contract"
  | .ok _ => notPlanned "Execution plan test-case snapshot must be a JSON object"

/-- `_validated_test_case` -/
def validatedTestCase (t : GeneratedTestCase) : Planned GeneratedTestCase :=
  (validateGeneratedTestCase p.decimal (Json.toItems t.asPayload)).mapError fun _ =>
    .rejected "Execution plans require a valid generated-test proposal"

/-- `_registered_target` -/
def registeredTarget (r : TargetRegistry) (targetId : Str) : Planned RegisteredTarget :=
  match r.get targetId with
  | some target => .ok target
  | none => notPlanned "Execution plans require one registered server-side target ID"

/-- `_require_bounded_positive_integer` -/
def requireBoundedPositiveInteger (value : Int) (label : String) (maximum : Nat) : Planned Unit :=
  notPlannedWhen (value < 1 ∨ maximum < value) (label ++ " must be a bounded positive integer")

/-- `_validated_limits` -/
def validatedLimits (l : ExecutionLimits) : Planned ExecutionLimits := do
  requireBoundedPositiveInteger l.requestTimeoutMs "Request timeout" maxRequestTimeoutMs
  requireBoundedPositiveInteger l.maxRequestBodyBytes "Maximum request-body size" maxRequestBodyBytes
  requireBoundedPositiveInteger l.maxResponseBytes "Maximum response size" maxResponseBytes
  requireBoundedPositiveInteger l.maxAssertions "Maximum assertion count" maxPlanAssertions
  return l

/-- The bytes of the JSON text of a body. -/
def requestBodyBytes : Option (List (Str × Json)) → Planned Nat
  | none => .ok 0
  | some body => do return ((utf8 (← canonicalJson p (.dict body))).getD []).length

/-- `_estimate` -/
def estimateOf (t : GeneratedTestCase) (l : ExecutionLimits) : Planned ExecutionEstimate := do
  let assertionCount := t.assertions.length
  notPlannedWhen (l.maxAssertions < assertionCount)
    "Generated test exceeds the plan assertion-count limit"
  let bytes ← requestBodyBytes p t.request.jsonBody
  notPlannedWhen (l.maxRequestBodyBytes < bytes)
    "Generated test exceeds the plan request-body size limit"
  return ⟨1, bytes, assertionCount, l.maxResponseBytes, l.requestTimeoutMs⟩

/-- `_material_test_case_payload` -/
def materialTestCasePayload (t : GeneratedTestCase) : List (Str × Json) :=
  t.asPayload.filter (·.1 ≠ lit "title")

def RegisteredTarget.asPayload (t : RegisteredTarget) : Json :=
  .dict [(lit "id", .str t.id.value), (lit "base_url", .str t.configuration.baseUrl),
    (lit "schema_version", .str t.configuration.schemaVersion),
    (lit "redirects_allowed", .bool t.configuration.redirectsAllowed)]

/-- What `_plan_hash_payload` prints. -/
def hashedPayload (target : RegisteredTarget) (t : GeneratedTestCase) (l : ExecutionLimits)
    (e : ExecutionEstimate) : Json :=
  .dict [(lit "schema_version", .str executionPlanSchemaVersion), (lit "target", target.asPayload),
    (lit "generated_test_case", .dict (materialTestCasePayload t)), (lit "limits", l.asPayload),
    (lit "estimate", e.asPayload)]

/-- `_plan_hash_payload` -/
def planHashPayload (target : RegisteredTarget) (t : GeneratedTestCase) (l : ExecutionLimits)
    (e : ExecutionEstimate) : Planned Str :=
  canonicalJson p (hashedPayload target t l e)

/-- `validate_execution_plan` -/
def validateExecutionPlan (r : TargetRegistry) (plan : ExecutionPlan) : Planned ExecutionPlan := do
  notPlannedWhen (plan.schemaVersion ≠ executionPlanSchemaVersion)
    "Execution plan has an unsupported schema version"
  let test ← testCaseFromSnapshot p plan.testCasePayload
  notPlannedWhen (test.id ≠ plan.testCaseId)
    "Execution plan test-case ID does not match its retained snapshot"
  let target ← registeredTarget r plan.targetId.value
  notPlannedWhen (plan.targetBaseUrl ≠ target.configuration.baseUrl ∨
      plan.targetSchemaVersion ≠ target.configuration.schemaVersion)
    "Execution plan target configuration changed after planning"
  let limits ← validatedLimits plan.limits
  let estimate ← estimateOf p test limits
  notPlannedWhen (plan.estimate ≠ estimate)
    "Execution plan estimate does not match its test case and limits"
  let expected := sha256Hex p (← planHashPayload p target test limits estimate)
  notPlannedWhen (plan.planHash ≠ expected)
    "Execution plan material content does not match its SHA-256 hash"
  notPlannedWhen (plan.id ≠ uuid5 p.sha1 executionPlanNamespace expected)
    "Execution plan ID does not match its canonical SHA-256 hash"
  return plan

/-- `build_execution_plan` -/
def buildExecutionPlan (r : TargetRegistry) (generated : GeneratedTestCase) (targetId : Str)
    (limits : ExecutionLimits) : Planned ExecutionPlan := do
  let test ← validatedTestCase p generated
  let target ← registeredTarget r targetId
  let limits ← validatedLimits limits
  let estimate ← estimateOf p test limits
  let snapshot ← canonicalJson p (.dict test.asPayload)
  let planHash := sha256Hex p (← planHashPayload p target test limits estimate)
  validateExecutionPlan p r
    { schemaVersion := executionPlanSchemaVersion
      id := uuid5 p.sha1 executionPlanNamespace planHash
      targetId := target.id
      targetBaseUrl := target.configuration.baseUrl
      targetSchemaVersion := target.configuration.schemaVersion
      testCaseId := test.id
      testCasePayload := snapshot
      limits := limits
      estimate := estimate
      planHash := planHash }

end

end QaCopilot.Plans
