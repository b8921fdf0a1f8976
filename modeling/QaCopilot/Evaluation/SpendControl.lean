import QaCopilot.Python.Decimal
import QaCopilot.Python.Json

/-!
# Spend control for paid evaluation calls

`run` of `SpendControlledCalls`: the worst case is checked before the provider is asked, the
actual cost is charged after, every attempt appends one ledger record, and a failure latches the
caller closed.
-/

namespace QaCopilot.SpendControl

open QaCopilot.Python

/-! ## Settings -/

def tokensPerMillion : Int := 1000000

/-- Per-call and per-run spend limits in micro-USD. -/
structure SpendLimits where
  maxCallMicrousd : Int
  maxRunMicrousd : Int
  call_pos : 0 < maxCallMicrousd
  run_pos : 0 < maxRunMicrousd
  call_le_run : maxCallMicrousd ≤ maxRunMicrousd

def SpendLimits.create (maxCall maxRun : Int) : Except String SpendLimits :=
  if call : 0 < maxCall then
    if run : 0 < maxRun then
      if le : maxCall ≤ maxRun then .ok ⟨maxCall, maxRun, call, run, le⟩
      else .error "The per-call limit cannot exceed the run limit"
    else .error "max_run_microusd must be a positive integer"
  else .error "max_call_microusd must be a positive integer"

/-- Per-provider token estimate and tolerance. -/
structure Calibration where
  charactersPerToken : Decimal
  tolerance : Decimal
  characters_pos : Number.lt (.finite 0) charactersPerToken.toNumber
  tolerance_nonneg : Number.lt tolerance.toNumber (.finite 0) = false

def Calibration.create (charactersPerToken tolerance : Decimal) : Except String Calibration :=
  if pos : Number.lt (.finite 0) charactersPerToken.toNumber then
    if nonneg : Number.lt tolerance.toNumber (.finite 0) = false then
      .ok ⟨charactersPerToken, tolerance, pos, nonneg⟩
    else .error "Calibration values must be positive"
  else .error "Calibration values must be positive"

structure LedgerIdentity where
  schemaVersion : Str
  provider : Str
  modelId : Str
  configurationVersion : Str
  promptVersion : Str
  pricingVersion : Str

/-- The rates of `ProviderPricing`, which admits no negative one. -/
structure ProviderPricing where
  inputMicrousdPerMillionTokens : Nat
  outputMicrousdPerMillionTokens : Nat

structure ModelUsage where
  inputTokens : Int
  outputTokens : Int

/-- A provider response; `usage` is none where the provider left it out. -/
structure StructuredModelResponse where
  responseId : Str
  outputJson : Json
  usage : Option ModelUsage

def baseLedgerFields : List Str :=
  ["schema_version", "provider", "model_id", "configuration_version", "prompt_version",
    "pricing_version", "call_index", "outcome", "failure", "estimated_input_tokens",
    "actual_input_tokens", "output_tokens", "calibration_ratio", "response_id",
    "worst_case_microusd", "charged_microusd", "running_total_microusd", "max_call_microusd",
    "max_run_microusd", "characters_per_token", "tolerance"].map lit

/-- What `SpendControlledCalls.__init__` accepts. -/
structure Controls where
  identity : LedgerIdentity
  pricing : ProviderPricing
  limits : SpendLimits
  calibration : Calibration
  outputTokenCap : Int
  worstCaseInputRate : Option Nat
  extraLedgerFields : List Str
  /-- Raises by an error that names the exception's type. -/
  usageDetails : Option (StructuredModelResponse → Except String (List (Str × Json)))
  cap_pos : 0 < outputTokenCap
  worst_ge_input : ∀ rate, worstCaseInputRate = some rate →
    pricing.inputMicrousdPerMillionTokens ≤ rate
  set_together : usageDetails = none ↔ extraLedgerFields = []
  fields_nodup : extraLedgerFields.Nodup
  fields_disjoint : ∀ name ∈ extraLedgerFields, name ∉ baseLedgerFields

def Controls.worstCasePricing (c : Controls) : ProviderPricing :=
  match c.worstCaseInputRate with
  | none => c.pricing
  | some rate => { c.pricing with inputMicrousdPerMillionTokens := rate }

/-! ## Costs -/

@[irreducible] def estimateInputTokens (characters : Nat) (calibration : Calibration) :
    Except DecimalSignal Int := do
  match ← Number.div (Decimal.ofInt characters) calibration.charactersPerToken.toNumber with
  | .finite q => return ⌈q⌉
  | .infinite _ => throw .overflow

/-- Cost of one call, rounded up to the next micro-USD. -/
def costMicrousd (pricing : ProviderPricing) (inputTokens outputTokens : Int) : Int :=
  -Int.fdiv (-(inputTokens * pricing.inputMicrousdPerMillionTokens
    + outputTokens * pricing.outputMicrousdPerMillionTokens)) tokensPerMillion

@[irreducible] def exceedsTolerance (estimated actual : Int) (calibration : Calibration) :
    Except DecimalSignal Bool := do
  let slack ← Number.add (.finite 1) calibration.tolerance.toNumber
  return Number.lt (← Number.mul (Decimal.ofInt estimated) slack) (Decimal.ofInt actual)

/-- `round(input_tokens / max(estimated, 1), 4)`; none for `OverflowError`. -/
@[irreducible] def calibrationRatio (inputTokens estimated : Int) : Option PyFloat :=
  (trueDivide inputTokens (max estimated 1).toNat).map fun x => roundPlaces x 4

/-! ## Ledger -/

/-- The `entry` of a call while it runs. -/
structure Entry where
  callIndex : Nat
  estimatedInputTokens : Int
  worstCaseMicrousd : Int
  actualInputTokens : Option Int
  outputTokens : Option Int
  calibrationRatio : Option PyFloat
  responseId : Option Str
  details : List (Str × Json)

/-- One ledger line. -/
structure LedgerRecord where
  outcome : String
  failure : Option String
  entry : Entry
  chargedMicrousd : Int
  runningTotalMicrousd : Int

def orNull {α : Type} (f : α → Json) : Option α → Json
  | some a => f a
  | none => .null

def LedgerRecord.toJson (c : Controls) (r : LedgerRecord) : Json :=
  .dict <|
    [(lit "schema_version", .str c.identity.schemaVersion),
      (lit "provider", .str c.identity.provider),
      (lit "model_id", .str c.identity.modelId),
      (lit "configuration_version", .str c.identity.configurationVersion),
      (lit "prompt_version", .str c.identity.promptVersion),
      (lit "pricing_version", .str c.identity.pricingVersion),
      (lit "call_index", .int r.entry.callIndex),
      (lit "outcome", .str (lit r.outcome)),
      (lit "failure", orNull (fun s => .str (lit s)) r.failure),
      (lit "estimated_input_tokens", .int r.entry.estimatedInputTokens),
      (lit "actual_input_tokens", orNull .int r.entry.actualInputTokens),
      (lit "output_tokens", orNull .int r.entry.outputTokens),
      (lit "calibration_ratio", orNull .float r.entry.calibrationRatio),
      (lit "response_id", orNull .str r.entry.responseId),
      (lit "worst_case_microusd", .int r.entry.worstCaseMicrousd),
      (lit "charged_microusd", .int r.chargedMicrousd),
      (lit "running_total_microusd", .int r.runningTotalMicrousd),
      (lit "max_call_microusd", .int c.limits.maxCallMicrousd),
      (lit "max_run_microusd", .int c.limits.maxRunMicrousd),
      (lit "characters_per_token", .str c.calibration.charactersPerToken.text),
      (lit "tolerance", .str c.calibration.tolerance.text)]
    ++ c.extraLedgerFields.map fun name => (name, (r.entry.details.lookup name).getD .null)

/-- The text that is appended, with a newline. -/
@[irreducible] def LedgerRecord.line (c : Controls) (r : LedgerRecord) : Except DumpsError Str := do
  return (← dumps .default 1 (r.toJson c).sorted) ++ lit "\n"

/-! ## The caller -/

structure Caller where
  closedReason : Option String
  callCount : Nat
  runningTotalMicrousd : Int
  ledger : List LedgerRecord

/-- The caller of a new, empty ledger. -/
def Caller.opened : Caller := ⟨none, 0, 0, []⟩

/-- Why a call raised. -/
inductive Failure where
  /-- The caller was closed before. -/
  | closed (reason : String)
  /-- The lock was held: an overlapping call. -/
  | overlapping
  /-- `_fail` latched the caller and wrote its record. -/
  | failedClosed (callIndex : Nat) (reason : String)
  /-- A decimal operation signalled. -/
  | decimal (signal : DecimalSignal)
  /-- `AttributeError`: the response has no usage. -/
  | noUsage
  /-- `OverflowError` of the calibration ratio. -/
  | ratioOverflow
  /-- The ledger record could not be encoded or appended. -/
  | ledgerWrite

/-- One call of `run`, with what its environment does. -/
structure Call where
  estimatedCharacters : Nat
  /-- The provider: a response, or the type name of the exception it raised. -/
  invoke : Except String StructuredModelResponse
  /-- The output validator: false where it raises. -/
  validate : StructuredModelResponse → Bool
  /-- Another `run` was tried, and refused by the lock, while the provider was asked. -/
  overlapped : Bool
  /-- Opening or appending to the ledger raises `OSError`. -/
  writeFails : Bool

/-- What one call of `run` did. -/
structure Attempt where
  invoked : Bool
  result : Except Failure StructuredModelResponse

def Attempt.raised (a : Attempt) : Bool :=
  match a.result with
  | .ok _ => false
  | .error _ => true

/-- The call raised because its ledger record was not written. -/
def Attempt.unrecorded (a : Attempt) : Bool :=
  match a.result with
  | .error .ledgerWrite => true
  | _ => false

section
variable (c : Controls) (call : Call)

/-- `_write_ledger`; none where it raises. -/
def writeLedger (s : Caller) (entry : Entry) (outcome : String) (charged : Int)
    (failure : Option String) : Option Caller :=
  let record : LedgerRecord := ⟨outcome, failure, entry, charged, s.runningTotalMicrousd⟩
  match record.line c, call.writeFails with
  | .ok _, false => some { s with ledger := s.ledger ++ [record] }
  | _, _ => none

/-- `_fail`: the latch and the charge come before the ledger write. -/
def fail (s : Caller) (entry : Entry) (reason : String) (charged : Int) : Caller × Failure :=
  let s := { s with
    closedReason := some reason
    runningTotalMicrousd := s.runningTotalMicrousd + charged }
  match writeLedger c call s entry "failed" charged (some reason) with
  | some s => (s, .failedClosed entry.callIndex reason)
  | none => (s, .ledgerWrite)

/-- The usage details that are recorded, `invalid_usage_details` otherwise. -/
def readDetails (response : StructuredModelResponse) : Option (List (Str × Json)) :=
  match c.usageDetails with
  | none => some []
  | some read =>
    match read response with
    | .error _ => none
    | .ok details =>
      let named := details.map Prod.fst
      let valid : Json → Bool
        | .null => true
        | .int n => 0 ≤ n
        | _ => false
      if (named.all c.extraLedgerFields.contains && c.extraLedgerFields.all named.contains)
          && details.all (fun d => valid d.2) then some details
      else none

/-- `_fail` of a call whose provider was asked. -/
def failAsked (s : Caller) (entry : Entry) (reason : String) (charged : Int) :
    Caller × Except Failure StructuredModelResponse :=
  (fail c call s entry reason charged).map id Except.error

/-- The checks on an answered call that follow its usage details. -/
def settleBudget (s : Caller) (entry : Entry) (response : StructuredModelResponse)
    (inputTokens charged : Int) : Caller × Except Failure StructuredModelResponse :=
  if c.limits.maxRunMicrousd < s.runningTotalMicrousd + charged then
    failAsked c call s entry "run_limit_exceeded_after_call" charged
  else
    match exceedsTolerance entry.estimatedInputTokens inputTokens c.calibration with
    | .error signal => (s, .error (.decimal signal))
    | .ok true => failAsked c call s entry "input_token_estimate_exceeded" charged
    | .ok false =>
      if call.validate response then
        let s := { s with runningTotalMicrousd := s.runningTotalMicrousd + charged }
        match writeLedger c call s entry "succeeded" charged none with
        | some s => (s, .ok response)
        | none => (s, .error .ledgerWrite)
      else failAsked c call s entry "invalid_output" charged

def settleDetails (s : Caller) (entry : Entry) (response : StructuredModelResponse)
    (inputTokens charged : Int) : Caller × Except Failure StructuredModelResponse :=
  match readDetails c response with
  | none => failAsked c call s entry "invalid_usage_details" charged
  | some details => settleBudget c call s { entry with details } response inputTokens charged

def settleUsage (s : Caller) (entry : Entry) (response : StructuredModelResponse)
    (usage : ModelUsage) : Caller × Except Failure StructuredModelResponse :=
  match calibrationRatio usage.inputTokens entry.estimatedInputTokens with
  | none => (s, .error .ratioOverflow)
  | some ratio =>
    settleDetails c call s
      { entry with
        actualInputTokens := some usage.inputTokens
        outputTokens := some usage.outputTokens
        calibrationRatio := some ratio
        responseId := some response.responseId }
      response usage.inputTokens (costMicrousd c.pricing usage.inputTokens usage.outputTokens)

/-- `_run_one` once the provider has answered. -/
def settle (s : Caller) (entry : Entry) (response : StructuredModelResponse) :
    Caller × Except Failure StructuredModelResponse :=
  match response.usage with
  | none => (s, .error .noUsage)
  | some usage => settleUsage c call s entry response usage

/-- `run` while another call holds the lock. -/
def overlap (s : Caller) : Caller × Attempt :=
  ({ s with closedReason := some "concurrent_call" }, ⟨false, .error .overlapping⟩)

/-- `_run_one` once the worst case fits both limits. -/
def ask (s : Caller) (entry : Entry) : Caller × Except Failure StructuredModelResponse :=
  let s := if call.overlapped then (overlap s).1 else s
  match call.invoke with
  | .error name =>
    failAsked c call s entry ("provider_call_failed:" ++ name) entry.worstCaseMicrousd
  | .ok response => settle c call s entry response

def refuse (s : Caller) (entry : Entry) (reason : String) : Caller × Attempt :=
  (fail c call s entry reason 0).map id fun failure => ⟨false, .error failure⟩

def worstCaseMicrousd (estimated : Int) : Int :=
  costMicrousd c.worstCasePricing estimated c.outputTokenCap

def counted (s : Caller) : Caller := { s with callCount := s.callCount + 1 }

/-- The entry of a call before the provider is asked. -/
def openEntry (s : Caller) (estimated : Int) : Entry :=
  ⟨s.callCount, estimated, worstCaseMicrousd c estimated, none, none, none, none, []⟩

/-- The worst case against both limits, then the call. -/
def reserve (s : Caller) (estimated : Int) : Caller × Attempt :=
  let entry := openEntry c s estimated
  if c.limits.maxCallMicrousd < worstCaseMicrousd c estimated then
    refuse c call s entry "worst_case_exceeds_call_limit"
  else if c.limits.maxRunMicrousd < s.runningTotalMicrousd + worstCaseMicrousd c estimated then
    refuse c call s entry "worst_case_exceeds_remaining_run_budget"
  else (ask c call s entry).map id fun result => ⟨true, result⟩

/-- `run` with the lock free. -/
def runOne (s : Caller) : Caller × Attempt :=
  match s.closedReason with
  | some reason => (s, ⟨false, .error (.closed reason)⟩)
  | none =>
    match estimateInputTokens call.estimatedCharacters c.calibration with
    | .error signal => (counted s, ⟨false, .error (.decimal signal)⟩)
    | .ok estimated => reserve c call (counted s) estimated

end

def step (c : Controls) (s : Caller) (call : Call) : Caller := (runOne c call s).1

end QaCopilot.SpendControl
