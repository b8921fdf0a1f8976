import QaCopilot.Lib.Results
import QaCopilot.Python.SortedTexts

/-!
# Measurements of model invocations

`metrics.py`: the pricing of a provider and the measurement of one invocation. Their constructors
take any object and build a value that carries what they checked.
-/

namespace QaCopilot.Metrics

open Python

inductive MetricsError where
  /-- `MetricsRejected` -/
  | rejected (message : String)
  /-- `TypeError` of a `set` that is asked for an object without a hash. -/
  | unhashable
  /-- `OverflowError` -/
  | overflow
  /-- `ZeroDivisionError` -/
  | zeroDivision
  /-- `ValueError` of `ceil` -/
  | value
  /-- `IndexError` -/
  | index
deriving DecidableEq

def raised {α : Type} : Except Overflow α → Except MetricsError α
  | .ok a => .ok a
  | .error _ => .error .overflow

/-! ## Fields -/

/-- Text of 1 to 256 characters without blanks at its ends. -/
structure BoundedText where
  text : Str
  ne_nil : text ≠ []
  canonical : text = strip text
  bounded : text.length ≤ 256
deriving DecidableEq

/-- `_require_bounded_text` -/
def requireBoundedText (label : String) (value : Object) : Except MetricsError BoundedText :=
  match value with
  | .str s =>
    if h : s ≠ [] ∧ s = strip s ∧ s.length ≤ 256 then .ok ⟨s, h.1, h.2.1, h.2.2⟩
    else .error (.rejected (label ++ " must be bounded canonical text"))
  | _ => .error (.rejected (label ++ " must be bounded canonical text"))

/-- `_require_non_negative_int`, which takes no `bool` for an `int`. -/
def requireNonNegativeInt (label : String) (value : Object) : Except MetricsError Nat :=
  match value with
  | .int (.ofNat n) => .ok n
  | _ => .error (.rejected (label ++ " must be a non-negative integer"))

/-! ## Pricing -/

/-- Rates in micro-USD per million tokens, and where they are from. -/
structure ProviderPricing where
  provider : BoundedText
  modelId : BoundedText
  pricingVersion : BoundedText
  sourceReference : BoundedText
  inputMicrousdPerMillionTokens : Nat
  outputMicrousdPerMillionTokens : Nat
deriving DecidableEq

def ProviderPricing.create (provider modelId pricingVersion sourceReference
    inputMicrousdPerMillionTokens outputMicrousdPerMillionTokens : Object) :
    Except MetricsError ProviderPricing := do
  let provider ← requireBoundedText "provider" provider
  let modelId ← requireBoundedText "model_id" modelId
  let pricingVersion ← requireBoundedText "pricing_version" pricingVersion
  let sourceReference ← requireBoundedText "source_reference" sourceReference
  let input ← requireNonNegativeInt "input_microusd_per_million_tokens"
    inputMicrousdPerMillionTokens
  let output ← requireNonNegativeInt "output_microusd_per_million_tokens"
    outputMicrousdPerMillionTokens
  return ⟨provider, modelId, pricingVersion, sourceReference, input, output⟩

/-! ## Measurements -/

inductive Outcome where
  | succeeded
  | failed
deriving DecidableEq

/-- The token counts that a provider reported. -/
structure Usage where
  inputTokens : Nat
  outputTokens : Nat
  totalTokens : Nat
deriving DecidableEq

/-- A number that is finite and not negative. -/
abbrev Duration := {v : IntOrFloat // v.nonNegative = .ok true}

/-- One invocation. Usage is there exactly when the invocation succeeded. -/
structure ModelInvocationMeasurement where
  correlationId : Uuid
  traceId : Option Uuid
  pricing : ProviderPricing
  outcome : Outcome
  durationMs : Duration
  retryCount : Nat
  usage : Option Usage
  correlation_ne : correlationId ≠ 0
  trace_ne : traceId ≠ some 0
  reported : usage.isSome = true ↔ outcome = .succeeded
deriving DecidableEq

/-- An argument of the constructor. -/
inductive Argument where
  | object (v : Object)
  | uuid (u : Uuid)
  | pricing (p : ProviderPricing)

def Argument.isNone : Argument → Bool
  | .object .none => true
  | _ => false

def requireCorrelation (value : Argument) : Except MetricsError {u : Uuid // u ≠ 0} :=
  match value with
  | .uuid u =>
    if h : u ≠ 0 then .ok ⟨u, h⟩
    else .error (.rejected "A non-zero correlation UUID is required")
  | _ => .error (.rejected "A non-zero correlation UUID is required")

def requireTrace (value : Argument) : Except MetricsError {t : Option Uuid // t ≠ some 0} :=
  match value with
  | .object .none => .ok ⟨none, nofun⟩
  | .uuid u =>
    if h : some u ≠ some 0 then .ok ⟨some u, h⟩
    else .error (.rejected "Trace identifiers must be non-zero UUIDs")
  | _ => .error (.rejected "Trace identifiers must be non-zero UUIDs")

def requirePricing (value : Argument) : Except MetricsError ProviderPricing :=
  match value with
  | .pricing p => .ok p
  | _ => .error (.rejected "Provider pricing is required")

def requireOutcome (value : Argument) : Except MetricsError Outcome :=
  match value with
  | .object (.str s) =>
    if s = lit "succeeded" then .ok .succeeded
    else if s = lit "failed" then .ok .failed
    else .error (.rejected "Outcome must be succeeded or failed")
  | .object (.list _) | .object (.dict _) => .error .unhashable
  | _ => .error (.rejected "Outcome must be succeeded or failed")

def requireDuration (value : Argument) : Except MetricsError Duration :=
  let refused := MetricsError.rejected "Duration must be a finite non-negative number"
  match value with
  | .object v =>
    match v.number? with
    | some n =>
      match h : n.nonNegative with
      | .ok true => .ok ⟨n, h⟩
      | .ok false => .error refused
      -- `isfinite` of an int past the largest double.
      | .error _ => .error .overflow
    | none => .error refused
  | _ => .error refused

def requireCount (label : String) (value : Argument) : Except MetricsError Nat :=
  match value with
  | .object v => requireNonNegativeInt label v
  | _ => .error (.rejected (label ++ " must be a non-negative integer"))

/-- The checks of the usage, after that of the outcome. -/
def requireUsage (outcome : Outcome) (inputTokens outputTokens totalTokens : Argument) :
    Except MetricsError {u : Option Usage // u.isSome = true ↔ outcome = .succeeded} :=
  let usage := [inputTokens, outputTokens, totalTokens]
  if usage.any (!·.isNone) ∧ usage.any (·.isNone) then
    .error (.rejected "Provider usage fields must be present together")
  else
    match outcome with
    | .succeeded =>
      if usage.all (·.isNone) then
        .error (.rejected "Successful invocations require provider usage")
      else do
        let input ← requireCount "input_tokens" inputTokens
        let output ← requireCount "output_tokens" outputTokens
        let total ← requireCount "total_tokens" totalTokens
        return ⟨some ⟨input, output, total⟩, iff_of_true rfl rfl⟩
    | .failed =>
      if usage.any (!·.isNone) then
        .error (.rejected "Failed invocations must not invent provider usage")
      else .ok ⟨none, nofun, nofun⟩

def ModelInvocationMeasurement.create (correlationId traceId pricing outcome durationMs retryCount
    inputTokens outputTokens totalTokens : Argument) :
    Except MetricsError ModelInvocationMeasurement := do
  let correlation ← requireCorrelation correlationId
  let trace ← requireTrace traceId
  let pricing ← requirePricing pricing
  let outcome ← requireOutcome outcome
  let duration ← requireDuration durationMs
  let retryCount ← requireCount "retry_count" retryCount
  let usage ← requireUsage outcome inputTokens outputTokens totalTokens
  return ⟨correlation, trace, pricing, outcome, duration, retryCount, usage, correlation.2, trace.2,
    usage.2⟩

end QaCopilot.Metrics
