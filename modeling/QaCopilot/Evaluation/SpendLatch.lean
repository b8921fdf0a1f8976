import QaCopilot.Evaluation.SpendBudget

/-!
# The spend latch

Every refusal that goes through `_fail` closes the caller for good. Five exits do not go through
it: a decimal signal in the estimate or in the tolerance check, a response without usage, a
calibration ratio past the largest double, and a ledger write that fails after a successful
response.
-/

namespace QaCopilot.SpendControl

open QaCopilot.Python

/-! ## A closed caller -/

section
variable {c : Controls} {call : Call}

theorem writeLedger_closedReason {s s' : Caller} {entry : Entry} {outcome : String} {charged : Int}
    {failure : Option String}
    (h : writeLedger c call s entry outcome charged failure = some s') :
    s'.closedReason = s.closedReason := by
  rw [writeLedger_books h]

theorem runOne_closed {s : Caller} (closed : s.closedReason ≠ none) :
    (runOne c call s).1 = s ∧ (runOne c call s).2.raised = true ∧
      (runOne c call s).2.invoked = false := by
  unfold runOne
  split
  · exact ⟨rfl, rfl, rfl⟩
  · rename_i isOpen
    exact absurd isOpen closed

/-! ## Exits past the latch -/

/-- `_write_ledger` raises on this record. -/
def Unwritable (c : Controls) (call : Call) (record : LedgerRecord) : Prop :=
  call.writeFails = true ∨ ∃ e, record.line c = .error e

theorem writeLedger_eq_none {s : Caller} {entry : Entry} {outcome : String} {charged : Int}
    {failure : Option String} : writeLedger c call s entry outcome charged failure = none ↔
      Unwritable c call ⟨outcome, failure, entry, charged, s.runningTotalMicrousd⟩ := by
  unfold writeLedger Unwritable
  dsimp only
  cases LedgerRecord.line c ⟨outcome, failure, entry, charged, s.runningTotalMicrousd⟩ <;>
    cases call.writeFails <;> simp

/-- The entry of a call once it is answered. -/
def Entry.answered (entry : Entry) (response : StructuredModelResponse) (usage : ModelUsage)
    (ratio : PyFloat) (details : List (Str × Json)) : Entry :=
  { entry with
    actualInputTokens := some usage.inputTokens
    outputTokens := some usage.outputTokens
    calibrationRatio := some ratio
    responseId := some response.responseId
    details }

@[simp] theorem Entry.answered_estimated (entry : Entry) (response : StructuredModelResponse)
    (usage : ModelUsage) (ratio : PyFloat) (details : List (Str × Json)) :
    (entry.answered response usage ratio details).estimatedInputTokens
      = entry.estimatedInputTokens := rfl

/-- The answer passes every check before the tolerance check. -/
structure Priced (c : Controls) (s : Caller) (entry : Entry) (response : StructuredModelResponse)
    (usage : ModelUsage) (ratio : PyFloat) (details : List (Str × Json)) : Prop where
  hasUsage : response.usage = some usage
  hasRatio : calibrationRatio usage.inputTokens entry.estimatedInputTokens = some ratio
  hasDetails : readDetails c response = some details
  fits : s.runningTotalMicrousd + costMicrousd c.pricing usage.inputTokens usage.outputTokens
    ≤ c.limits.maxRunMicrousd

/-- An answered call raises, but not by `_fail`. -/
inductive AnswerEscapes (c : Controls) (call : Call) (s : Caller) (entry : Entry)
    (response : StructuredModelResponse) : Prop where
  | noUsage (missing : response.usage = none)
  | ratio {usage} (hasUsage : response.usage = some usage)
    (overflow : calibrationRatio usage.inputTokens entry.estimatedInputTokens = none)
  | tolerance {usage ratio details signal} (priced : Priced c s entry response usage ratio details)
    (signals : exceedsTolerance entry.estimatedInputTokens usage.inputTokens c.calibration
      = .error signal)
  | ledger {usage ratio details} (priced : Priced c s entry response usage ratio details)
    (within : exceedsTolerance entry.estimatedInputTokens usage.inputTokens c.calibration
      = .ok false)
    (valid : call.validate response = true)
    (unwritable : Unwritable c call ⟨"succeeded", none,
      entry.answered response usage ratio details,
      costMicrousd c.pricing usage.inputTokens usage.outputTokens,
      s.runningTotalMicrousd + costMicrousd c.pricing usage.inputTokens usage.outputTokens⟩)

/-- The call raises past the latch. -/
inductive Escapes (c : Controls) (call : Call) (s : Caller) : Prop where
  | estimate {signal} (isOpen : s.closedReason = none)
    (signals : estimateInputTokens call.estimatedCharacters c.calibration = .error signal)
  | answer {estimated response} (admitted : Admitted c call s estimated)
    (alone : call.overlapped = false) (answers : call.invoke = .ok response)
    (escapes : AnswerEscapes c call (counted s) (openEntry c (counted s) estimated) response)

/-- An exception was raised and the caller is open after it. -/
def LeavesOpen (r : Caller × Except Failure StructuredModelResponse) : Prop :=
  r.1.closedReason = none ∧ ∃ failure, r.2 = .error failure

theorem failAsked_closes (s : Caller) (entry : Entry) (reason : String) (charged : Int) :
    ¬ LeavesOpen (failAsked c call s entry reason charged) :=
  fun h => (fail_books c call s entry reason charged).1 h.1

theorem settleBudget_leavesOpen {s : Caller} {entry : Entry}
    {response : StructuredModelResponse} {usage : ModelUsage} {ratio : PyFloat}
    {details : List (Str × Json)} (hasUsage : response.usage = some usage)
    (hasRatio : calibrationRatio usage.inputTokens entry.estimatedInputTokens = some ratio)
    (hasDetails : readDetails c response = some details) :
    LeavesOpen (settleBudget c call s (entry.answered response usage ratio details) response
      usage.inputTokens (costMicrousd c.pricing usage.inputTokens usage.outputTokens)) →
    AnswerEscapes c call s entry response := by
  unfold settleBudget
  split
  · exact fun h => absurd h (failAsked_closes _ _ _ _)
  rename_i exceeds
  have priced : Priced c s entry response usage ratio details :=
    ⟨hasUsage, hasRatio, hasDetails, not_lt.mp exceeds⟩
  split
  · rename_i signals
    exact fun _ => .tolerance priced signals
  · exact fun h => absurd h (failAsked_closes _ _ _ _)
  rename_i within
  split
  · rename_i valid
    dsimp only
    split
    · rintro ⟨-, failure, h⟩
      cases h
    · rename_i lost
      exact fun _ => .ledger priced within valid (writeLedger_eq_none.mp lost)
  · exact fun h => absurd h (failAsked_closes _ _ _ _)

theorem settle_priced {s : Caller} {entry : Entry} {response : StructuredModelResponse}
    {usage : ModelUsage} {ratio : PyFloat} {details : List (Str × Json)}
    (priced : Priced c s entry response usage ratio details) :
    settle c call s entry response = settleBudget c call s
      (entry.answered response usage ratio details) response usage.inputTokens
      (costMicrousd c.pricing usage.inputTokens usage.outputTokens) := by
  simp only [settle, priced.hasUsage, settleUsage, priced.hasRatio, settleDetails,
    priced.hasDetails]
  rfl

theorem settle_leavesOpen {s : Caller} (isOpen : s.closedReason = none) (entry : Entry)
    (response : StructuredModelResponse) :
    LeavesOpen (settle c call s entry response) ↔ AnswerEscapes c call s entry response := by
  constructor
  · unfold settle
    split
    · rename_i missing
      exact fun _ => .noUsage missing
    rename_i usage hasUsage
    unfold settleUsage
    split
    · rename_i overflow
      exact fun _ => .ratio hasUsage overflow
    rename_i ratio hasRatio
    unfold settleDetails
    split
    · exact fun h => absurd h (failAsked_closes _ _ _ _)
    · rename_i details hasDetails
      exact settleBudget_leavesOpen hasUsage hasRatio hasDetails
  · intro escapes
    cases escapes with
    | noUsage missing =>
      have stays : settle c call s entry response = (s, .error .noUsage) := by
        simp only [settle, missing]
      exact stays ▸ ⟨isOpen, _, rfl⟩
    | ratio hasUsage overflow =>
      have stays : settle c call s entry response = (s, .error .ratioOverflow) := by
        simp only [settle, hasUsage, settleUsage, overflow]
      exact stays ▸ ⟨isOpen, _, rfl⟩
    | tolerance priced signals =>
      rw [settle_priced priced, settleBudget, if_neg (not_lt.mpr priced.fits),
        Entry.answered_estimated, signals]
      exact ⟨isOpen, _, rfl⟩
    | ledger priced within valid unwritable =>
      have lost := writeLedger_eq_none (s := { s with runningTotalMicrousd := _ }).mpr unwritable
      rw [settle_priced priced, settleBudget, if_neg (not_lt.mpr priced.fits),
        Entry.answered_estimated, within]
      simp only [valid, if_true, lost]
      exact ⟨isOpen, _, rfl⟩

theorem settle_keeps_closed {s : Caller} (closed : s.closedReason ≠ none) (entry : Entry)
    (response : StructuredModelResponse) :
    (settle c call s entry response).1.closedReason ≠ none := by
  unfold settle
  split
  · exact closed
  unfold settleUsage
  split
  · exact closed
  unfold settleDetails
  split
  · exact (fail_books c call s _ _ _).1
  unfold settleBudget
  split
  · exact (fail_books c call s _ _ _).1
  split
  · exact closed
  · exact (fail_books c call s _ _ _).1
  split
  · dsimp only
    split
    · rename_i booked
      rw [writeLedger_closedReason booked]
      exact closed
    · exact closed
  · exact (fail_books c call s _ _ _).1

theorem ask_leavesOpen {s : Caller} (isOpen : s.closedReason = none) (entry : Entry) :
    LeavesOpen (ask c call s entry) ↔ call.overlapped = false ∧
      ∃ response, call.invoke = .ok response ∧ AnswerEscapes c call s entry response := by
  unfold ask
  generalize call.invoke = invoke
  cases invoke with
  | error name =>
    simp only [reduceCtorEq, false_and, exists_false, and_false, iff_false]
    exact failAsked_closes _ _ _ _
  | ok response =>
    cases call.overlapped with
    | true =>
      simp only [Bool.true_eq_false, false_and, iff_false]
      exact fun h => settle_keeps_closed (Option.some_ne_none _) entry response h.1
    | false =>
      simp only [Except.ok.injEq, exists_eq_left', true_and]
      exact settle_leavesOpen isOpen entry response

/-- The exact condition under which a call raises and leaves the caller open. -/
theorem runOne_leavesOpen {s : Caller} :
    (runOne c call s).1.closedReason = none ∧ (runOne c call s).2.raised = true
      ↔ Escapes c call s := by
  have refused : ∀ t entry reason, (refuse c call t entry reason).1.closedReason ≠ none :=
    fun t entry reason => (fail_books c call t entry reason 0).1
  constructor
  · unfold runOne
    split
    · rename_i reason closed
      rintro ⟨isOpen, -⟩
      simp [closed] at isOpen
    rename_i isOpen
    split
    · rename_i signals
      exact fun _ => .estimate isOpen signals
    rename_i estimated estimate
    unfold reserve
    split
    · exact fun h => absurd h.1 (refused _ _ _)
    rename_i call_fits
    split
    · exact fun h => absurd h.1 (refused _ _ _)
    rename_i run_fits
    rintro ⟨after, raised⟩
    have leaves : LeavesOpen (ask c call (counted s) (openEntry c (counted s) estimated)) := by
      refine ⟨after, ?_⟩
      simp only [Prod.map, Attempt.raised] at raised
      split at raised
      · cases raised
      · rename_i failure failed
        exact ⟨failure, failed⟩
    obtain ⟨alone, response, answers, escapes⟩ := (ask_leavesOpen (s := counted s) isOpen _).mp leaves
    exact .answer ⟨isOpen, estimate, not_lt.mp call_fits, not_lt.mp run_fits⟩ alone answers escapes
  · intro escapes
    cases escapes with
    | estimate isOpen signals =>
      simp only [runOne, isOpen, signals]
      exact ⟨isOpen, rfl⟩
    | answer admitted alone answers escapes =>
      obtain ⟨after, failure, failed⟩ :=
        (ask_leavesOpen (s := counted s) admitted.isOpen _).mpr ⟨alone, _, answers, escapes⟩
      simp only [runOne, admitted.isOpen, admitted.estimate, reserve]
      rw [if_neg (not_lt.mpr admitted.call_fits),
        if_neg (show ¬ _ < (counted s).runningTotalMicrousd + _ from not_lt.mpr admitted.run_fits)]
      exact ⟨after, by simp only [Prod.map, Attempt.raised, failed]⟩

end

/-! ## Runs -/

/-- Once `a` has raised, `b` raises and does not ask the provider. -/
def Latches (a b : Attempt) : Prop := a.raised = true → b.raised = true ∧ b.invoked = false

instance (a b : Attempt) : Decidable (Latches a b) := inferInstanceAs (Decidable (_ → _))

/-- The attempts that a caller makes of the calls, in order. -/
def attempts (c : Controls) (s : Caller) (calls : List Call) : List Attempt :=
  Runs.trace (step c) (fun s call => [(runOne c call s).2]) s calls

theorem closed_attempts {c : Controls} {s : Caller} (closed : s.closedReason ≠ none)
    (calls : List Call) :
    ∀ a ∈ attempts c s calls, a.raised = true ∧ a.invoked = false := by
  refine Runs.trace_forall (I := fun s => s.closedReason ≠ none) (C := fun _ _ => True)
    ?_ ?_ closed (Runs.meets_true s calls)
  · intro s call closed _
    rw [step, (runOne_closed closed).1]
    exact closed
  · intro s call closed _ a ha
    obtain rfl := List.mem_singleton.mp ha
    exact (runOne_closed closed).2

/-- While no call escapes the latch, the first call that raises is the last that may ask. -/
theorem latched_closed (c : Controls) (calls : List Call)
    (guarded : Runs.Meets (step c) (fun s call => ¬ Escapes c call s) Caller.opened calls) :
    (attempts c Caller.opened calls).Pairwise Latches := by
  generalize Caller.opened = s at guarded
  induction calls generalizing s with
  | nil => exact .nil
  | cons call calls ih =>
    refine List.pairwise_cons.mpr ⟨?_, ih (step c s call) guarded.2⟩
    intro later hlater raised
    refine closed_attempts (fun isOpen => ?_) calls later hlater
    exact guarded.1 (runOne_leavesOpen.mp ⟨isOpen, raised⟩)

/-- A ledger that cannot be appended to after a successful response, then a call that is made. -/
def lostLedgerCalls : List Call :=
  [⟨3, .ok sampleResponse, fun _ => true, false, true⟩,
    ⟨3, .ok sampleResponse, fun _ => true, false, false⟩]

theorem lost_ledger_leaves_open :
    ¬ (attempts sampleControls Caller.opened lostLedgerCalls).Pairwise Latches := by
  decide +kernel

theorem latched_closed_sample :
    (attempts sampleControls Caller.opened sampleCalls.reverse).Pairwise Latches := by
  refine latched_closed sampleControls sampleCalls.reverse ⟨?_, ?_, trivial⟩
  · exact (not_congr runOne_leavesOpen).mp (by decide +kernel)
  · exact (not_congr runOne_leavesOpen).mp (by decide +kernel)

end QaCopilot.SpendControl
