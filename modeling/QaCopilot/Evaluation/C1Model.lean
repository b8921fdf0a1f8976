import QaCopilot.Evaluation.SpendBudget
import QaCopilot.Python.Dict

/-!
# The C1 model

`complete` of `C1B0Model`, which keeps its own copy of the spend control: reserve, ask, settle and
latch. Its provider is the gateway, so a response has an object for its output and a usage.
-/

namespace QaCopilot.C1

open Python SpendControl

/-! ## Settings -/

/-- `CHARACTERS_PER_TOKEN` -/
def charactersPerToken : Decimal := .finite false 21 (-1)

/-- `C1_INPUT_TOKEN_ESTIMATE_TOLERANCE` -/
def inputTokenEstimateTolerance : Decimal := .finite false 15 (-2)

/-- `C1_MAX_TOKENS` -/
def maxTokens : Int := 4096

def b0SystemInstruction : Str :=
  lit "Follow the user message exactly and return only the requested JSON object."

/-- `{"type": type}` -/
def typed (type : String) : List (Str × Json) := [(lit "type", .str (lit type))]

def b0OutputSchema : Json :=
  .dict (typed "object" ++
    [(lit "properties", .dict
        [(lit "boundary", .dict (typed "string")),
          (lit "ground_truth_ids",
            .dict (typed "array" ++ [(lit "items", .dict (typed "string"))])),
          (lit "source_references",
            .dict (typed "array" ++ [(lit "items", .dict (typed "string"))]))]),
      (lit "required", .list
        [.str (lit "boundary"), .str (lit "ground_truth_ids"), .str (lit "source_references")]),
      (lit "additionalProperties", .bool false)])

/-- `json.dumps(C1_B0_OUTPUT_SCHEMA, separators=(",", ":"))` -/
def b0OutputSchemaText : Str :=
  ((dumps ⟨true, true, lit ",", lit ":"⟩ 4 b0OutputSchema).toOption).getD []

/-- The pricing and the limits of a `C1B0Model`; `C1SpendLimits` makes the checks of
`SpendLimits`. -/
structure Settings where
  pricing : ProviderPricing
  pricingVersion : Str
  limits : SpendLimits

/-! ## Costs -/

/-- The characters of the prompt and of what the request wraps around it. -/
def requestCharacters (prompt : Str) : Nat :=
  prompt.length + b0SystemInstruction.length + b0OutputSchemaText.length

def estimateInputTokens (prompt : Str) : Except DecimalSignal Int := do
  match ← Number.div (Decimal.ofInt (requestCharacters prompt)) charactersPerToken.toNumber with
  | .finite q => return ⌈q⌉
  | .infinite _ => throw .overflow

/-- Cost of one call, rounded up to the next micro-USD. -/
def costMicrousd (pricing : ProviderPricing) (inputTokens outputTokens : Int) : Int :=
  -Int.fdiv (-(inputTokens * pricing.inputMicrousdPerMillionTokens
    + outputTokens * pricing.outputMicrousdPerMillionTokens)) 1000000

def exceedsEstimateTolerance (estimated actual : Int) : Except DecimalSignal Bool := do
  let slack ← Number.add (.finite 1) inputTokenEstimateTolerance.toNumber
  return Number.lt (← Number.mul (Decimal.ofInt estimated) slack) (Decimal.ofInt actual)

/-- `charged / _MICROUSD_PER_USD`; none for `OverflowError`. -/
def costUsd (charged : Int) : Option Finite := trueDivide charged 1000000

/-! ## The output -/

structure Response where
  responseId : Str
  outputJson : Dict Str Json
  usage : ModelUsage

def outputFields : List Str :=
  [lit "boundary", lit "ground_truth_ids", lit "source_references"]

/-- A text that is not blank. -/
def isText : Json → Bool
  | .str s => strip s ≠ []
  | _ => false

/-- A list of distinct texts, none of them blank. -/
def isTextList : Json → Bool
  | .list items =>
    items.all isText && (items.filterMap fun | .str s => some s | _ => none).Nodup
  | _ => false

/-- `output.get(key)` -/
def outputField (output : List (Str × Json)) (key : String) : Json :=
  ((output.find? (·.1 = lit key)).map (·.2)).getD .null

/-- What `_validated_content` accepts. -/
def validOutput (output : List (Str × Json)) : Bool :=
  (output.map (·.1)).all (· ∈ outputFields) && outputFields.all (· ∈ output.map (·.1))
    && isText (outputField output "boundary") && isTextList (outputField output "ground_truth_ids")
    && isTextList (outputField output "source_references")

/-- `json.dumps(dict(output), sort_keys=True)` -/
def content (output : List (Str × Json)) : Except DumpsError Str :=
  dumps .default 2 (Json.dict output).sorted

/-- The two values of `NaiveBaselineModelResponse`. -/
structure Completion where
  content : Str
  cost : Finite

/-! ## Ledger -/

/-- The `entry` of a call while it runs. -/
structure Entry where
  callIndex : Nat
  estimatedInputTokens : Int
  worstCaseMicrousd : Int
  actualInputTokens : Option Int
  outputTokens : Option Int
  responseId : Option Str

/-- One ledger line. -/
structure LedgerRecord where
  outcome : String
  failure : Option String
  entry : Entry
  chargedMicrousd : Int
  runningTotalMicrousd : Int

def LedgerRecord.toJson (settings : Settings) (r : LedgerRecord) : Json :=
  .dict
    [(lit "schema_version", .str (lit "c1-call-ledger/v1")),
      (lit "provider", .str (lit "anthropic")),
      (lit "model_id", .str (lit "claude-sonnet-5-5")),
      (lit "configuration_version", .str (lit "C1/v1")),
      (lit "pricing_version", .str settings.pricingVersion),
      (lit "call_index", .int r.entry.callIndex),
      (lit "outcome", .str (lit r.outcome)),
      (lit "failure", orNull (fun s => .str (lit s)) r.failure),
      (lit "estimated_input_tokens", .int r.entry.estimatedInputTokens),
      (lit "actual_input_tokens", orNull .int r.entry.actualInputTokens),
      (lit "output_tokens", orNull .int r.entry.outputTokens),
      (lit "response_id", orNull .str r.entry.responseId),
      (lit "worst_case_microusd", .int r.entry.worstCaseMicrousd),
      (lit "charged_microusd", .int r.chargedMicrousd),
      (lit "running_total_microusd", .int r.runningTotalMicrousd),
      (lit "max_call_microusd", .int settings.limits.maxCallMicrousd),
      (lit "max_run_microusd", .int settings.limits.maxRunMicrousd)]

/-- The text that is appended, with a newline. -/
@[irreducible] def LedgerRecord.line (settings : Settings) (r : LedgerRecord) :
    Except DumpsError Str := do
  return (← dumps .default 1 (r.toJson settings).sorted) ++ lit "\n"

/-! ## The model -/

structure Model where
  closedReason : Option String
  callCount : Nat
  runningTotalMicrousd : Int
  ledger : List LedgerRecord

/-- The model of a new, empty ledger. -/
def Model.opened : Model := ⟨none, 0, 0, []⟩

/-- Why a call raised. -/
inductive Failure where
  /-- The model was closed before. -/
  | closed (reason : String)
  /-- The lock was held: an overlapping call. -/
  | overlapping
  /-- `_fail` latched the model and wrote its record. -/
  | failedClosed (callIndex : Nat) (reason : String)
  /-- A decimal operation signalled. -/
  | decimal (signal : DecimalSignal)
  /-- The content could not be encoded. -/
  | content (error : DumpsError)
  /-- `OverflowError` of the cost in USD. -/
  | costOverflow
  /-- The ledger record could not be encoded or appended. -/
  | ledgerWrite

/-- One call of `complete`, with what its environment does. -/
structure Call where
  prompt : Str
  /-- `generate_structured`: a response, or the type name of the exception it raised. -/
  generate : Except String Response
  /-- Another `complete` was tried, and refused by the lock, while the provider was asked. -/
  overlapped : Bool
  /-- Opening or appending to the ledger raises `OSError`. -/
  writeFails : Bool

/-- What one call of `complete` did. -/
structure Attempt where
  invoked : Bool
  result : Except Failure Completion

/-- The call raised because its ledger record was not written. -/
def Attempt.unrecorded (a : Attempt) : Bool :=
  match a.result with
  | .error .ledgerWrite => true
  | _ => false

section
variable (settings : Settings) (call : Call)

/-- `_write_ledger`; none where it raises. -/
def writeLedger (s : Model) (entry : Entry) (outcome : String) (charged : Int)
    (failure : Option String) : Option Model :=
  let record : LedgerRecord := ⟨outcome, failure, entry, charged, s.runningTotalMicrousd⟩
  match record.line settings, call.writeFails with
  | .ok _, false => some { s with ledger := s.ledger ++ [record] }
  | _, _ => none

/-- `_fail`: the latch and the charge come before the ledger write. -/
def fail (s : Model) (entry : Entry) (reason : String) (charged : Int) : Model × Failure :=
  let s := { s with
    closedReason := some reason
    runningTotalMicrousd := s.runningTotalMicrousd + charged }
  match writeLedger settings call s entry "failed" charged (some reason) with
  | some s => (s, .failedClosed entry.callIndex reason)
  | none => (s, .ledgerWrite)

/-- `_fail` of a call whose provider was asked. -/
def failAsked (s : Model) (entry : Entry) (reason : String) (charged : Int) :
    Model × Except Failure Completion :=
  (fail settings call s entry reason charged).map id Except.error

/-- The end of a call whose output is valid. -/
def succeed (s : Model) (entry : Entry) (content : Str) (charged : Int) :
    Model × Except Failure Completion :=
  let s := { s with runningTotalMicrousd := s.runningTotalMicrousd + charged }
  match writeLedger settings call s entry "succeeded" charged none with
  | none => (s, .error .ledgerWrite)
  | some s =>
    match costUsd charged with
    | none => (s, .error .costOverflow)
    | some cost => (s, .ok ⟨content, cost⟩)

/-- `_validated_content`, and what follows it. -/
def settleOutput (s : Model) (entry : Entry) (response : Response) (charged : Int) :
    Model × Except Failure Completion :=
  if validOutput response.outputJson.items then
    match content response.outputJson.items with
    | .error e => (s, .error (.content e))
    | .ok content => succeed settings call s entry content charged
  else failAsked settings call s entry "invalid_b0_output" charged

/-- `_complete_one` once the provider has answered. -/
def settle (s : Model) (entry : Entry) (response : Response) :
    Model × Except Failure Completion :=
  let charged := costMicrousd settings.pricing response.usage.inputTokens
    response.usage.outputTokens
  let entry := { entry with
    actualInputTokens := some response.usage.inputTokens
    outputTokens := some response.usage.outputTokens
    responseId := some response.responseId }
  if settings.limits.maxRunMicrousd < s.runningTotalMicrousd + charged then
    failAsked settings call s entry "run_limit_exceeded_after_call" charged
  else
    match exceedsEstimateTolerance entry.estimatedInputTokens response.usage.inputTokens with
    | .error signal => (s, .error (.decimal signal))
    | .ok true => failAsked settings call s entry "input_token_estimate_exceeded" charged
    | .ok false => settleOutput settings call s entry response charged

/-- `complete` while another call holds the lock. -/
def overlap (s : Model) : Model × Attempt :=
  ({ s with closedReason := some "concurrent_call" }, ⟨false, .error .overlapping⟩)

/-- `_complete_one` once the worst case fits both limits. -/
def ask (s : Model) (entry : Entry) : Model × Except Failure Completion :=
  let s := if call.overlapped then (overlap s).1 else s
  match call.generate with
  | .error name =>
    failAsked settings call s entry ("provider_call_failed:" ++ name) entry.worstCaseMicrousd
  | .ok response => settle settings call s entry response

def refuse (s : Model) (entry : Entry) (reason : String) : Model × Attempt :=
  (fail settings call s entry reason 0).map id fun failure => ⟨false, .error failure⟩

def worstCaseMicrousd (estimated : Int) : Int :=
  costMicrousd settings.pricing estimated maxTokens

/-- The worst case against both limits, then the call. -/
def reserve (s : Model) (estimated : Int) : Model × Attempt :=
  let worst := worstCaseMicrousd settings estimated
  let entry : Entry := ⟨s.callCount, estimated, worst, none, none, none⟩
  if settings.limits.maxCallMicrousd < worst then
    refuse settings call s entry "worst_case_exceeds_call_limit"
  else if settings.limits.maxRunMicrousd < s.runningTotalMicrousd + worst then
    refuse settings call s entry "worst_case_exceeds_remaining_run_budget"
  else (ask settings call s entry).map id fun result => ⟨true, result⟩

def counted (s : Model) : Model := { s with callCount := s.callCount + 1 }

/-- `complete` with the lock free. -/
def completeOne (s : Model) : Model × Attempt :=
  match s.closedReason with
  | some reason => (s, ⟨false, .error (.closed reason)⟩)
  | none =>
    match estimateInputTokens call.prompt with
    | .error signal => (counted s, ⟨false, .error (.decimal signal)⟩)
    | .ok estimated => reserve settings call (counted s) estimated

end

def step (settings : Settings) (s : Model) (call : Call) : Model :=
  (completeOne settings call s).1

/-! ## The content of a valid output -/

theorem b0OutputSchema_dumps :
    dumps ⟨true, true, lit ",", lit ":"⟩ 4 b0OutputSchema = .ok b0OutputSchemaText := by
  decide +kernel

end QaCopilot.C1
