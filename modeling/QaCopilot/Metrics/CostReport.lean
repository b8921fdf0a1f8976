import QaCopilot.Metrics.Measurements
import QaCopilot.Python.Dict

/-!
# The report of cost and reliability

`metrics.py`: the collector of measurements, and the report that sums them up for each pricing.
-/

namespace QaCopilot.Metrics

open Python

def metricsSchemaVersion : Str := lit "workflow-metrics/v1"

def tokensPerMillion : Nat := 1000000

/-- Cost, reliability and latency under one pricing revision. -/
structure ModelCostSuccessSummary where
  pricing : ProviderPricing
  invocationCount : Nat
  successCount : Nat
  failureCount : Nat
  retryCount : Nat
  successRatePercent : PyFloat
  inputTokens : Nat
  outputTokens : Nat
  totalTokens : Nat
  costMicrousd : Nat
  latencyP50Ms : IntOrFloat
  latencyP95Ms : IntOrFloat
deriving DecidableEq

structure CostSuccessReport where
  schemaVersion : Str
  summaries : List ModelCostSuccessSummary
deriving DecidableEq

/-! ## Parts of a summary -/

/-- `math.ceil` -/
def ceil : PyFloat → Except MetricsError Int
  | .finite x => .ok (-(-x.value / scale))
  | .infinite _ => .error .overflow
  | .nan => .error .value

/-- The place of a percentile among `count` values in order, the first of which is at 1. -/
def nearestRank (percentile : PyFloat) (count : Nat) : Except MetricsError Nat := do
  let rank ← ceil (percentile.mul (← raised (floatOfInt count)))
  return (max 1 rank).toNat

/-- `_nearest_rank_percentile` -/
def nearestRankPercentile (values : List IntOrFloat) (percentile : PyFloat) :
    Except MetricsError IntOrFloat := do
  let ordered := IntOrFloat.sorted values
  if ordered.isEmpty then
    throw (.rejected "A percentile requires at least one measurement")
  let rank ← nearestRank percentile ordered.length
  match ordered[rank - 1]? with
  | some v => return v
  | none => throw .index

/-- The literal `0.50`. -/
def p50 : PyFloat := .ofDecimal false 50 (-2)

/-- The literal `0.95`. -/
def p95 : PyFloat := .ofDecimal false 95 (-2)

/-- `_cost_microusd` -/
def costMicrousd (pricing : ProviderPricing) (inputTokens outputTokens : Nat) : Nat :=
  let numerator := inputTokens * pricing.inputMicrousdPerMillionTokens
    + outputTokens * pricing.outputMicrousdPerMillionTokens
  (numerator + tokensPerMillion - 1) / tokensPerMillion

/-- `round((success_count / invocation_count) * 100, 3)` -/
def successRatePercent (successCount invocationCount : Nat) : Except MetricsError PyFloat := do
  if invocationCount = 0 then throw .zeroDivision
  match trueDivide successCount invocationCount with
  | none => throw .overflow
  | some ratio => raised (((PyFloat.finite ratio).mul (← raised (floatOfInt 100))).round 3)

/-! ## The report -/

/-- The sum over the measurements of `value or 0`. -/
def usageTotal (count : Usage → Nat) (measurements : List ModelInvocationMeasurement) : Nat :=
  (measurements.map fun m => (m.usage.map count).getD 0).sum

def durations (values : List ModelInvocationMeasurement) : List IntOrFloat :=
  values.map (·.durationMs.val)

/-- The summary of measurements, with the parts of it that can fail. -/
def summaryOf (pricing : ProviderPricing) (values : List ModelInvocationMeasurement)
    (rate : PyFloat) (latencyP50Ms latencyP95Ms : IntOrFloat) : ModelCostSuccessSummary :=
  let successful := values.filter (·.outcome = .succeeded)
  let inputTokens := usageTotal (·.inputTokens) successful
  let outputTokens := usageTotal (·.outputTokens) successful
  { pricing := pricing
    invocationCount := values.length
    successCount := successful.length
    failureCount := values.length - successful.length
    retryCount := (values.map (·.retryCount)).sum
    successRatePercent := rate
    inputTokens := inputTokens
    outputTokens := outputTokens
    totalTokens := usageTotal (·.totalTokens) successful
    costMicrousd := costMicrousd pricing inputTokens outputTokens
    latencyP50Ms := latencyP50Ms
    latencyP95Ms := latencyP95Ms }

/-- `_summary_for_pricing` -/
def summaryForPricing (pricing : ProviderPricing) (values : List ModelInvocationMeasurement) :
    Except MetricsError ModelCostSuccessSummary := do
  let successful := values.filter (·.outcome = .succeeded)
  let rate ← successRatePercent successful.length values.length
  let latencyP50Ms ← nearestRankPercentile (durations values) p50
  let latencyP95Ms ← nearestRankPercentile (durations values) p95
  return summaryOf pricing values rate latencyP50Ms latencyP95Ms

/-- The key of the summaries in a report. -/
def sortKey (pricing : ProviderPricing) : List Str :=
  [pricing.provider.text, pricing.modelId.text, pricing.pricingVersion.text]

/-- An item of a collection that should hold measurements. -/
inductive Item where
  | measurement (m : ModelInvocationMeasurement)
  | other

/-- `grouped.setdefault(measurement.pricing, []).append(measurement)` -/
def group (grouped : Dict ProviderPricing (List ModelInvocationMeasurement)) (item : Item) :
    Except MetricsError (Dict ProviderPricing (List ModelInvocationMeasurement)) :=
  match item with
  | .measurement m => .ok (grouped.append m.pricing m)
  | .other => .error (.rejected "Only model invocation measurements are accepted")

/-- `build_cost_success_report` -/
def buildCostSuccessReport (items : List Item) : Except MetricsError CostSuccessReport := do
  let grouped ← items.foldlM group Dict.empty
  let summaries ← (sortByTexts sortKey grouped.keys).mapM fun pricing =>
    summaryForPricing pricing ((grouped.get? pricing).getD [])
  return ⟨metricsSchemaVersion, summaries⟩

/-! ## Equality -/

/-- `==` of two summaries, which takes numbers of one value for the same. -/
def ModelCostSuccessSummary.eq (a b : ModelCostSuccessSummary) : Bool :=
  a.pricing = b.pricing && a.invocationCount = b.invocationCount &&
    a.successCount = b.successCount && a.failureCount = b.failureCount &&
    a.retryCount = b.retryCount &&
    (IntOrFloat.float a.successRatePercent).eq (.float b.successRatePercent) &&
    a.inputTokens = b.inputTokens && a.outputTokens = b.outputTokens &&
    a.totalTokens = b.totalTokens && a.costMicrousd = b.costMicrousd &&
    a.latencyP50Ms.eq b.latencyP50Ms && a.latencyP95Ms.eq b.latencyP95Ms

/-- `==` of two reports. -/
def CostSuccessReport.eq (a b : CostSuccessReport) : Bool :=
  a.schemaVersion = b.schemaVersion && a.summaries.length = b.summaries.length &&
    (a.summaries.zip b.summaries).all fun s => s.1.eq s.2

/-! ## The collector -/

/-- `InMemoryWorkflowMetrics`, whose lock makes every call one step. -/
structure InMemoryWorkflowMetrics where
  measurements : List ModelInvocationMeasurement

namespace InMemoryWorkflowMetrics

def create : InMemoryWorkflowMetrics := ⟨[]⟩

def record (c : InMemoryWorkflowMetrics) (item : Item) : Except MetricsError InMemoryWorkflowMetrics :=
  match item with
  | .measurement m => .ok ⟨c.measurements ++ [m]⟩
  | .other => .error (.rejected "Only model invocation measurements are accepted")

def report (c : InMemoryWorkflowMetrics) : Except MetricsError CostSuccessReport :=
  buildCostSuccessReport (c.measurements.map .measurement)

end InMemoryWorkflowMetrics

end QaCopilot.Metrics
