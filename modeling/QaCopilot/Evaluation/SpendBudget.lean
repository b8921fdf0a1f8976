import QaCopilot.Evaluation.SpendControl
import QaCopilot.Lib.Runs

/-!
# Spend stays within budget

The ledger and the running total agree whatever the provider does; the run limit is kept by an
open caller, and always if the provider keeps to the estimate and to the requested output cap.
-/

namespace QaCopilot.SpendControl

open QaCopilot.Python

/-! ## Costs -/

/-- Rounding up to the next micro-USD keeps the order of the exact costs. -/
theorem costMicrousd_le {p q : ProviderPricing} {i j o u : Int}
    (h : i * p.inputMicrousdPerMillionTokens + o * p.outputMicrousdPerMillionTokens
      ≤ j * q.inputMicrousdPerMillionTokens + u * q.outputMicrousdPerMillionTokens) :
    costMicrousd p i o ≤ costMicrousd q j u := by
  unfold costMicrousd tokensPerMillion
  rw [Int.fdiv_eq_ediv_of_nonneg _ (by decide), Int.fdiv_eq_ediv_of_nonneg _ (by decide)]
  have := Int.ediv_le_ediv (c := 1000000) (by decide) (Int.neg_le_neg h)
  omega

theorem Controls.worstCasePricing_output (c : Controls) :
    c.worstCasePricing.outputMicrousdPerMillionTokens
      = c.pricing.outputMicrousdPerMillionTokens := by
  unfold worstCasePricing
  split <;> rfl

theorem Controls.input_le_worstCasePricing (c : Controls) :
    c.pricing.inputMicrousdPerMillionTokens
      ≤ c.worstCasePricing.inputMicrousdPerMillionTokens := by
  unfold worstCasePricing
  split
  · exact Nat.le_refl _
  · rename_i rate h
    exact c.worst_ge_input rate h

theorem fix_nonneg {q r : Rat} (hq : 0 ≤ q) (h : Number.fix q = .ok (.finite r)) : 0 ≤ r := by
  unfold Number.fix at h
  split at h
  · simp only [Except.ok.injEq, Number.finite.injEq] at h
    exact h.le
  · dsimp only at h
    split at h
    · cases h
    · simp only [Except.ok.injEq, Number.finite.injEq] at h
      rw [← h]
      have sign : (0 : Rat) ≤ (q.num.sign : Rat) := by
        exact_mod_cast Int.sign_nonneg_iff.mpr (Rat.num_nonneg.mpr hq)
      positivity

/-- The estimate of a prompt is never negative. -/
theorem estimateInputTokens_nonneg {characters : Nat} {k : Calibration} {estimated : Int}
    (h : estimateInputTokens characters k = .ok estimated) : 0 ≤ estimated := by
  have pos := k.characters_pos
  unfold estimateInputTokens at h
  cases hk : k.charactersPerToken.toNumber with
  | infinite negative =>
    simp only [hk, Decimal.ofInt, Number.div, bind, Except.bind, pure, Except.pure,
      Except.ok.injEq] at h
    simp [← h]
  | finite q =>
    simp only [hk, Number.lt, decide_eq_true_eq] at pos
    simp only [hk, Decimal.ofInt, Number.div, pos.ne', if_false, bind, Except.bind] at h
    split at h
    · cases h
    · rename_i number fixed
      cases number with
      | infinite => cases h
      | finite r =>
        simp only [pure, Except.pure, Except.ok.injEq] at h
        have ratio : (0 : Rat) ≤ ((characters : Int) : Rat) / q := by positivity
        rw [← h]
        exact Int.ceil_nonneg (fix_nonneg ratio fixed)

/-- The reservation covers every outcome within the estimate and the cap. -/
theorem cost_le_worstCase (c : Controls) {estimated i o : Int} (nonneg : 0 ≤ estimated)
    (hi : i ≤ estimated) (ho : o ≤ c.outputTokenCap) :
    costMicrousd c.pricing i o ≤ worstCaseMicrousd c estimated := by
  apply costMicrousd_le
  rw [c.worstCasePricing_output]
  have rate : (c.pricing.inputMicrousdPerMillionTokens : Int)
      ≤ c.worstCasePricing.inputMicrousdPerMillionTokens := by
    exact_mod_cast c.input_le_worstCasePricing
  have input : i * c.pricing.inputMicrousdPerMillionTokens
      ≤ estimated * c.worstCasePricing.inputMicrousdPerMillionTokens :=
    calc i * c.pricing.inputMicrousdPerMillionTokens
      _ ≤ estimated * c.pricing.inputMicrousdPerMillionTokens :=
        mul_le_mul_of_nonneg_right hi (Int.natCast_nonneg _)
      _ ≤ estimated * c.worstCasePricing.inputMicrousdPerMillionTokens :=
        mul_le_mul_of_nonneg_left rate nonneg
  have output : o * c.pricing.outputMicrousdPerMillionTokens
      ≤ c.outputTokenCap * c.pricing.outputMicrousdPerMillionTokens :=
    mul_le_mul_of_nonneg_right ho (Int.natCast_nonneg _)
  omega

/-! ## How a call ends -/

/-- The call added `charged` to the total and one record of it to the ledger. -/
structure Books (s s' : Caller) (charged : Int) : Prop where
  total : s'.runningTotalMicrousd = s.runningTotalMicrousd + charged
  record : ∃ r : LedgerRecord, s'.ledger = s.ledger ++ [r] ∧ r.chargedMicrousd = charged ∧
    r.runningTotalMicrousd = s'.runningTotalMicrousd

/-- The caller is open and the worst case of the call fits both limits. -/
structure Admitted (c : Controls) (call : Call) (s : Caller) (estimated : Int) : Prop where
  isOpen : s.closedReason = none
  estimate : estimateInputTokens call.estimatedCharacters c.calibration = .ok estimated
  call_fits : worstCaseMicrousd c estimated ≤ c.limits.maxCallMicrousd
  run_fits : s.runningTotalMicrousd + worstCaseMicrousd c estimated ≤ c.limits.maxRunMicrousd

/-- Every way in which a call ends, other than by a failed ledger write. -/
inductive Ends (c : Controls) (call : Call) (s : Caller) : Caller → Attempt → Prop where
  | latched {failure} (closed : s.closedReason ≠ none) : Ends c call s s ⟨false, .error failure⟩
  | refused {s' failure} (closes : s'.closedReason ≠ none) (books : Books s s' 0) :
    Ends c call s s' ⟨false, .error failure⟩
  | unguarded {s' a} (isOpen : s.closedReason = none) (raised : a.raised = true)
    (answered : a.invoked = true → ∃ response, call.invoke = .ok response)
    (total : s'.runningTotalMicrousd = s.runningTotalMicrousd) (ledger : s'.ledger = s.ledger) :
    Ends c call s s' a
  | providerRaised {s' name failure estimated} (admitted : Admitted c call s estimated)
    (raises : call.invoke = .error name) (closes : s'.closedReason ≠ none)
    (books : Books s s' (worstCaseMicrousd c estimated)) :
    Ends c call s s' ⟨true, .error failure⟩
  | answered {s' response usage result estimated} (admitted : Admitted c call s estimated)
    (answers : call.invoke = .ok response) (hasUsage : response.usage = some usage)
    (fits : s'.closedReason = none → s'.runningTotalMicrousd ≤ c.limits.maxRunMicrousd)
    (books : Books s s' (costMicrousd c.pricing usage.inputTokens usage.outputTokens)) :
    Ends c call s s' ⟨true, result⟩

section
variable {c : Controls} {call : Call}

theorem writeLedger_books {s s' : Caller} {entry : Entry} {outcome : String} {charged : Int}
    {failure : Option String}
    (h : writeLedger c call s entry outcome charged failure = some s') :
    s' = { s with ledger := s.ledger ++
      [⟨outcome, failure, entry, charged, s.runningTotalMicrousd⟩] } := by
  unfold writeLedger at h
  dsimp only at h
  split at h
  · exact (Option.some.inj h).symm
  · cases h

theorem fail_books (c : Controls) (call : Call) (s : Caller) (entry : Entry) (reason : String) (charged : Int) :
    (fail c call s entry reason charged).1.closedReason ≠ none ∧
      ((fail c call s entry reason charged).2 = .ledgerWrite ∨
        Books s (fail c call s entry reason charged).1 charged) := by
  unfold fail
  dsimp only
  split
  · rename_i s' written
    rw [writeLedger_books written]
    exact ⟨Option.some_ne_none _, .inr ⟨rfl, _, rfl, rfl, rfl⟩⟩
  · exact ⟨Option.some_ne_none _, .inl rfl⟩

/-- After an answer the call ends unguarded, or charges the actual cost. -/
inductive Settles (c : Controls) (s : Caller) (response : StructuredModelResponse) :
    Caller × Except Failure StructuredModelResponse → Prop where
  | unguarded {failure} : Settles c s response (s, .error failure)
  | charged {r usage} (hasUsage : response.usage = some usage)
    (fits : r.1.closedReason = none → r.1.runningTotalMicrousd ≤ c.limits.maxRunMicrousd)
    (books : Books s r.1 (costMicrousd c.pricing usage.inputTokens usage.outputTokens)) :
    Settles c s response r

theorem failAsked_settles {s : Caller} {response : StructuredModelResponse} {usage : ModelUsage}
    (hasUsage : response.usage = some usage) (entry : Entry) (reason : String)
    (written : (failAsked c call s entry reason
      (costMicrousd c.pricing usage.inputTokens usage.outputTokens)).2 ≠ .error .ledgerWrite) :
    Settles c s response (failAsked c call s entry reason
      (costMicrousd c.pricing usage.inputTokens usage.outputTokens)) := by
  obtain ⟨closes, lost | books⟩ := fail_books c call s entry reason
    (costMicrousd c.pricing usage.inputTokens usage.outputTokens)
  · exact absurd (congrArg Except.error lost) written
  · exact .charged hasUsage (fun isOpen => absurd isOpen closes) books

theorem settleBudget_settles {response : StructuredModelResponse} {usage : ModelUsage}
    (hasUsage : response.usage = some usage) (s : Caller) (entry : Entry) (tokens : Int) :
    (settleBudget c call s entry response tokens
      (costMicrousd c.pricing usage.inputTokens usage.outputTokens)).2 ≠ .error .ledgerWrite →
    Settles c s response (settleBudget c call s entry response tokens
      (costMicrousd c.pricing usage.inputTokens usage.outputTokens)) := by
  unfold settleBudget
  split
  · exact failAsked_settles hasUsage _ _
  rename_i fits
  split
  · exact fun _ => .unguarded
  · exact failAsked_settles hasUsage _ _
  split
  · dsimp only
    split
    · rename_i s' booked
      rw [writeLedger_books booked]
      exact fun _ => .charged hasUsage (fun _ => not_lt.mp fits) ⟨rfl, _, rfl, rfl, rfl⟩
    · exact fun written => absurd rfl written
  · exact failAsked_settles hasUsage _ _

theorem settle_settles (s : Caller) (entry : Entry) (response : StructuredModelResponse) :
    (settle c call s entry response).2 ≠ .error .ledgerWrite →
      Settles c s response (settle c call s entry response) := by
  unfold settle
  split
  · exact fun _ => .unguarded
  rename_i usage hasUsage
  unfold settleUsage
  split
  · exact fun _ => .unguarded
  unfold settleDetails
  split
  · exact failAsked_settles hasUsage _ _
  · exact settleBudget_settles hasUsage s _ _

theorem Books.of_same {s t s' : Caller} {charged : Int} (h : Books t s' charged)
    (total : t.runningTotalMicrousd = s.runningTotalMicrousd) (ledger : t.ledger = s.ledger) :
    Books s s' charged :=
  ⟨total ▸ h.total, ledger ▸ h.record⟩

theorem refuse_ends {s t : Caller} (entry : Entry) (reason : String)
    (total : t.runningTotalMicrousd = s.runningTotalMicrousd) (ledger : t.ledger = s.ledger)
    (written : (refuse c call t entry reason).2.result ≠ .error .ledgerWrite) :
    Ends c call s (refuse c call t entry reason).1 (refuse c call t entry reason).2 := by
  obtain ⟨closes, lost | books⟩ := fail_books c call t entry reason 0
  · exact absurd (congrArg Except.error lost) written
  · exact .refused closes (books.of_same total ledger)

theorem ask_ends {s t : Caller} {estimated : Int} (admitted : Admitted c call s estimated)
    (total : t.runningTotalMicrousd = s.runningTotalMicrousd) (ledger : t.ledger = s.ledger)
    (written : (ask c call t (openEntry c t estimated)).2 ≠ .error .ledgerWrite) :
    Ends c call s (ask c call t (openEntry c t estimated)).1
      ⟨true, (ask c call t (openEntry c t estimated)).2⟩ := by
  revert written
  have same : (if call.overlapped then (overlap t).1 else t).runningTotalMicrousd
        = s.runningTotalMicrousd ∧
      (if call.overlapped then (overlap t).1 else t).ledger = s.ledger := by
    split
    · exact ⟨total, ledger⟩
    · exact ⟨total, ledger⟩
  unfold ask
  generalize (if call.overlapped then (overlap t).1 else t) = u at same
  split
  · rename_i name raises
    intro written
    obtain ⟨closes, lost | books⟩ := fail_books c call u
      (openEntry c t estimated) ("provider_call_failed:" ++ name) (worstCaseMicrousd c estimated)
    · exact absurd (congrArg Except.error lost) written
    · exact .providerRaised admitted raises closes (books.of_same same.1 same.2)
  · rename_i response answers
    intro written
    have settles := settle_settles u (openEntry c t estimated) response written
    generalize settle c call u (openEntry c t estimated) response = r at settles
    cases settles with
    | unguarded =>
      exact .unguarded admitted.isOpen rfl (fun _ => ⟨response, answers⟩) same.1 same.2
    | charged hasUsage fits books =>
      exact .answered admitted answers hasUsage fits (books.of_same same.1 same.2)

theorem reserve_ends {s t : Caller} {estimated : Int} (isOpen : s.closedReason = none)
    (estimate : estimateInputTokens call.estimatedCharacters c.calibration = .ok estimated)
    (total : t.runningTotalMicrousd = s.runningTotalMicrousd) (ledger : t.ledger = s.ledger) :
    (reserve c call t estimated).2.result ≠ .error .ledgerWrite →
      Ends c call s (reserve c call t estimated).1 (reserve c call t estimated).2 := by
  unfold reserve
  split
  · exact refuse_ends _ _ total ledger
  rename_i call_fits
  split
  · exact refuse_ends _ _ total ledger
  rename_i run_fits
  exact ask_ends ⟨isOpen, estimate, not_lt.mp call_fits, not_lt.mp (total ▸ run_fits)⟩ total ledger

theorem runOne_ends (s : Caller) : (runOne c call s).2.result ≠ .error .ledgerWrite →
    Ends c call s (runOne c call s).1 (runOne c call s).2 := by
  unfold runOne
  split
  · rename_i reason closed
    exact fun _ => .latched (by simp [closed])
  rename_i isOpen
  split
  · exact fun _ => .unguarded isOpen rfl (by simp) rfl rfl
  · exact reserve_ends isOpen (by assumption) rfl rfl

theorem recorded_ends {s : Caller} (h : (runOne c call s).2.unrecorded = false) :
    Ends c call s (step c s call) (runOne c call s).2 := by
  refine runOne_ends s fun lost => ?_
  simp [Attempt.unrecorded, lost] at h

end

/-! ## The ledger balances -/

def charges (records : List LedgerRecord) : Int := (records.map (·.chargedMicrousd)).sum

/-- The ledger accounts for the running total, and an open caller is within the run limit. -/
structure Balanced (c : Controls) (s : Caller) : Prop where
  total : s.runningTotalMicrousd = charges s.ledger
  prefixes : ∀ before r after, s.ledger = before ++ r :: after →
    r.runningTotalMicrousd = charges before + r.chargedMicrousd
  withinRun : s.closedReason = none → s.runningTotalMicrousd ≤ c.limits.maxRunMicrousd

theorem opened_balanced (c : Controls) : Balanced c Caller.opened where
  total := rfl
  prefixes before r after h := by simp [Caller.opened] at h
  withinRun _ := c.limits.run_pos.le

theorem Books.balanced {c : Controls} {s s' : Caller} {charged : Int} (h : Books s s' charged)
    (fits : s'.closedReason = none → s'.runningTotalMicrousd ≤ c.limits.maxRunMicrousd)
    (b : Balanced c s) : Balanced c s' := by
  obtain ⟨r, ledger, rfl, running⟩ := h.record
  refine ⟨?_, ?_, fits⟩
  · rw [h.total, ledger, b.total]
    simp [charges]
  · intro before q after split
    rw [ledger] at split
    rcases List.eq_nil_or_concat after with rfl | ⟨init, last, rfl⟩
    · obtain ⟨rfl, eq⟩ := List.append_inj' split rfl
      obtain rfl : r = q := by simpa using eq
      rw [running, h.total, b.total]
    · refine b.prefixes before q init ?_
      rw [List.concat_eq_append, ← List.cons_append, ← List.append_assoc] at split
      exact (List.append_inj' split rfl).1

theorem Ends.balanced {c : Controls} {call : Call} {s s' : Caller} {a : Attempt}
    (h : Ends c call s s' a) (b : Balanced c s) : Balanced c s' := by
  cases h with
  | latched => exact b
  | refused closes books => exact books.balanced (fun isOpen => absurd isOpen closes) b
  | unguarded isOpen _ _ total ledger =>
    exact ⟨by rw [total, ledger, b.total], by rw [ledger]; exact b.prefixes,
      fun _ => total ▸ b.withinRun isOpen⟩
  | providerRaised _ _ closes books => exact books.balanced (fun isOpen => absurd isOpen closes) b
  | answered _ _ _ fits books => exact books.balanced fits b

/-! ## A provider that keeps to its bounds -/

/-- The reported usage exceeds neither the estimate nor the requested output cap. -/
def KeepsBounds (c : Controls) (call : Call) : Prop :=
  ∀ response usage estimated, call.invoke = .ok response → response.usage = some usage →
    estimateInputTokens call.estimatedCharacters c.calibration = .ok estimated →
    usage.inputTokens ≤ estimated ∧ usage.outputTokens ≤ c.outputTokenCap

structure Bounded (c : Controls) (s : Caller) : Prop where
  run : s.runningTotalMicrousd ≤ c.limits.maxRunMicrousd
  call : ∀ r ∈ s.ledger, r.chargedMicrousd ≤ c.limits.maxCallMicrousd

theorem Books.bounded {c : Controls} {s s' : Caller} {charged : Int} (h : Books s s' charged)
    (run : s.runningTotalMicrousd + charged ≤ c.limits.maxRunMicrousd)
    (call : charged ≤ c.limits.maxCallMicrousd) (b : Bounded c s) : Bounded c s' := by
  obtain ⟨r, ledger, rfl, -⟩ := h.record
  refine ⟨h.total ▸ run, ?_⟩
  rw [ledger]
  intro q hq
  rcases List.mem_append.mp hq with hq | hq
  · exact b.call q hq
  · obtain rfl := List.mem_singleton.mp hq
    exact call

theorem Admitted.cost_le {c : Controls} {call : Call} {s : Caller} {estimated i o : Int}
    (h : Admitted c call s estimated) (hi : i ≤ estimated) (ho : o ≤ c.outputTokenCap) :
    costMicrousd c.pricing i o ≤ worstCaseMicrousd c estimated :=
  cost_le_worstCase c (estimateInputTokens_nonneg h.estimate) hi ho

/-- What a call whose provider keeps to its bounds charges. -/
theorem Ends.charge {c : Controls} {call : Call} {s s' : Caller} {a : Attempt}
    (h : Ends c call s s' a) (keeps : KeepsBounds c call) (b : Bounded c s) :
    Bounded c s' ∧
      s'.runningTotalMicrousd - s.runningTotalMicrousd ≤ c.limits.maxCallMicrousd := by
  have call_pos := c.limits.call_pos
  cases h with
  | latched => exact ⟨b, by omega⟩
  | refused _ books =>
    exact ⟨books.bounded (by have := b.run; omega) (by omega) b, by have := books.total; omega⟩
  | unguarded _ _ _ total ledger =>
    exact ⟨⟨total ▸ b.run, ledger ▸ b.call⟩, by omega⟩
  | providerRaised admitted _ _ books =>
    have := admitted.call_fits
    exact ⟨books.bounded admitted.run_fits admitted.call_fits b, by have := books.total; omega⟩
  | answered admitted answers hasUsage _ books =>
    obtain ⟨input, output⟩ := keeps _ _ _ answers hasUsage admitted.estimate
    have cost := admitted.cost_le input output
    have := admitted.call_fits
    have := admitted.run_fits
    exact ⟨books.bounded (by omega) (by omega) b, by have := books.total; omega⟩

/-- A raised invocation is charged as much as any outcome within the bounds would be. -/
theorem Ends.raised_charge {c : Controls} {call : Call} {s s' : Caller} {a : Attempt}
    {name : String} (h : Ends c call s s' a) (invoked : a.invoked = true)
    (raises : call.invoke = .error name) {estimated i o : Int}
    (estimate : estimateInputTokens call.estimatedCharacters c.calibration = .ok estimated)
    (hi : i ≤ estimated) (ho : o ≤ c.outputTokenCap) :
    costMicrousd c.pricing i o ≤ s'.runningTotalMicrousd - s.runningTotalMicrousd := by
  cases h with
  | latched => cases invoked
  | refused => cases invoked
  | unguarded _ _ answered =>
    obtain ⟨response, answers⟩ := answered invoked
    rw [raises] at answers
    cases answers
  | providerRaised admitted _ _ books =>
    have same := admitted.estimate
    rw [estimate] at same
    obtain rfl := Except.ok.inj same
    have := admitted.cost_le hi ho
    have := books.total
    omega
  | answered _ answers =>
    rw [raises] at answers
    cases answers

/-! ## Runs -/

/-- No call lost its ledger record. -/
def Recorded (c : Controls) (s : Caller) (call : Call) : Prop :=
  (runOne c call s).2.unrecorded = false

/-- The charge of a call: what it adds to the running total. -/
def chargeOf (c : Controls) (s : Caller) (call : Call) : Int :=
  (step c s call).runningTotalMicrousd - s.runningTotalMicrousd

/-- Running total and ledger agree for any provider; the limits are kept by a provider that keeps
to its bounds, and a raised invocation is charged for the worst of them. -/
theorem spend_within_budget (c : Controls) (calls : List Call)
    (recorded : Runs.Meets (step c) (Recorded c) Caller.opened calls) :
    Balanced c (Runs.run (step c) Caller.opened calls) ∧
    ((∀ call ∈ calls, KeepsBounds c call) →
      Bounded c (Runs.run (step c) Caller.opened calls) ∧
      ∀ before call after, calls = before ++ call :: after →
        let s := Runs.run (step c) Caller.opened before
        chargeOf c s call ≤ c.limits.maxCallMicrousd ∧
        ∀ name estimated i o, (runOne c call s).2.invoked = true → call.invoke = .error name →
          estimateInputTokens call.estimatedCharacters c.calibration = .ok estimated →
          i ≤ estimated → o ≤ c.outputTokenCap →
          costMicrousd c.pricing i o ≤ chargeOf c s call) := by
  refine ⟨Runs.run_invariant (fun s call b r => (recorded_ends r).balanced b)
    (opened_balanced c) recorded, fun keeps => ?_⟩
  have bounded : ∀ calls, (∀ call ∈ calls, KeepsBounds c call) →
      Runs.Meets (step c) (Recorded c) Caller.opened calls →
      Bounded c (Runs.run (step c) Caller.opened calls) := by
    intro calls
    induction calls using List.reverseRecOn with
    | nil => exact fun _ _ => ⟨c.limits.run_pos.le, by simp [Caller.opened]⟩
    | append_singleton calls call ih =>
      intro keeps recorded
      obtain ⟨earlier, last⟩ := Runs.meets_append.mp recorded
      rw [Runs.run_append]
      exact ((recorded_ends last.1).charge (keeps call (by simp))
        (ih (fun d hd => keeps d (by simp [hd])) earlier)).1
  refine ⟨bounded calls keeps recorded, ?_⟩
  rintro before call after rfl
  obtain ⟨earlier, last⟩ := Runs.meets_append.mp recorded
  have ends := recorded_ends last.1
  refine ⟨(ends.charge (keeps call (by simp))
    (bounded before (fun d hd => keeps d (by simp [hd])) earlier)).2, ?_⟩
  intro name estimated i o invoked raises estimate hi ho
  exact ends.raised_charge invoked raises estimate hi ho

theorem without_details :
    (none : Option (StructuredModelResponse → Except String (List (Str × Json)))) = none ↔
      ([] : List Str) = [] := iff_of_true rfl rfl

theorem without_fields : ∀ name ∈ ([] : List Str), name ∉ baseLedgerFields := by simp

/-- One micro-USD a token, ten a call, a hundred a run. -/
def sampleControls : Controls where
  identity := ⟨lit "v1", lit "p", lit "m", lit "c", lit "q", lit "r"⟩
  pricing := ⟨1000000, 1000000⟩
  limits := ⟨10, 100, by decide, by decide, by decide⟩
  calibration := ⟨.finite false 1 0, .finite false 0 0, by decide +kernel, by decide +kernel⟩
  outputTokenCap := 2
  worstCaseInputRate := none
  extraLedgerFields := []
  usageDetails := none
  cap_pos := by decide
  worst_ge_input := by simp
  set_together := without_details
  fields_nodup := List.nodup_nil
  fields_disjoint := without_fields

def sampleResponse : StructuredModelResponse := ⟨lit "r1", .dict [], some ⟨2, 1⟩⟩

/-- An answered call, then one whose provider raises. -/
def sampleCalls : List Call :=
  [⟨3, .ok sampleResponse, fun _ => true, false, false⟩,
    ⟨4, .error "TimeoutError", fun _ => true, false, false⟩]

theorem spend_within_budget_sample :
    (Runs.run (step sampleControls) Caller.opened sampleCalls).runningTotalMicrousd = 9 ∧
      Balanced sampleControls (Runs.run (step sampleControls) Caller.opened sampleCalls) ∧
      Bounded sampleControls (Runs.run (step sampleControls) Caller.opened sampleCalls) := by
  have recorded : Runs.Meets (step sampleControls) (Recorded sampleControls) Caller.opened
      sampleCalls :=
    ⟨show _ = _ by decide +kernel, show _ = _ by decide +kernel, trivial⟩
  have keeps : ∀ call ∈ sampleCalls, KeepsBounds sampleControls call := by
    intro call hc response usage estimated answers hasUsage estimate
    simp only [sampleCalls, List.mem_cons, List.not_mem_nil, or_false] at hc
    rcases hc with rfl | rfl
    · obtain rfl := Except.ok.inj answers
      obtain rfl := Option.some.inj hasUsage
      have three : estimateInputTokens 3 sampleControls.calibration = .ok 3 := by decide +kernel
      obtain rfl := Except.ok.inj (three.symm.trans estimate)
      decide
    · cases answers
  obtain ⟨balanced, bounds⟩ := spend_within_budget sampleControls sampleCalls recorded
  exact ⟨by decide +kernel, balanced, (bounds keeps).1⟩

end QaCopilot.SpendControl
