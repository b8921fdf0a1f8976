import QaCopilot.Evaluation.Runner
import QaCopilot.Lib.Table

/-!
# Resumed and concurrent runs

A run reads its results back by case id, so the order in which the executions complete is not
seen in it. A resumed run differs from a fresh one in the markers of the results that it takes
over, and in the budget check, which asks for the cost of the other cases only.
-/

namespace QaCopilot.Evaluation

open Python Results

instance : Inhabited EvaluationRunCaseResult :=
  ⟨⟨[], 0, [], ⟨[], .empty, [], [], .int 0⟩, false⟩⟩

variable {ε : Type} {files : Files} {suite : EvaluationCaseSuite} {executor : Executor ε}
  {schedule : Schedule} {o : RunOptions}

/-! ## The results of a run -/

/-- The result of a selected case, whatever completes when. -/
def resultOf (files : Files) (executor : Executor ε) (resumed : Dict Str EvaluationRunCaseResult)
    (case : EvaluationCase) : Except (RunError ε) EvaluationRunCaseResult :=
  match resumed.get? case.id with
  | some result => .ok result
  | none => executeCase files executor case

theorem executeCase_ok {case : EvaluationCase} {r : EvaluationRunCaseResult}
    (made : executeCase files executor case = .ok r) :
    ∃ o digest observation, executor case = .ok o ∧
      caseDigest (ε := ε) files case = .ok digest ∧
      checked (ε := ε) (validatedObservation o) = .ok observation ∧
      r = ⟨case.id, case.version, digest, observation, false⟩ := by
  rw [executeCase] at made
  split at made
  · cases made
  · rename_i o called
    obtain ⟨digest, hashed, made⟩ := bind_ok.mp made
    obtain ⟨observation, valid, made⟩ := bind_ok.mp made
    exact ⟨o, digest, observation, called, hashed, valid, (Except.ok.inj made).symm⟩

theorem executeCase_caseId {case : EvaluationCase} {r : EvaluationRunCaseResult}
    (made : executeCase files executor case = .ok r) : r.caseId = case.id := by
  obtain ⟨_, _, _, -, -, -, rfl⟩ := executeCase_ok made
  rfl

theorem mem_pendingCases {selected : List EvaluationCase}
    {resumed : Dict Str EvaluationRunCaseResult} {case : EvaluationCase} :
    case ∈ pendingCases selected resumed ↔ case ∈ selected ∧ resumed.get? case.id = none := by
  rw [pendingCases, List.mem_filter, decide_eq_true_eq, Dict.get?_eq_none]

/-- What the results of the executed cases say, read back by case id. -/
theorem get?_completed {selected : List EvaluationCase} (distinct : (selected.map (·.id)).Nodup)
    {resumed : Dict Str EvaluationRunCaseResult} {completed : List EvaluationRunCaseResult}
    (made : executePendingCases files executor schedule (pendingCases selected resumed) =
      .ok completed) {case : EvaluationCase} (pending : case ∈ pendingCases selected resumed) :
    ∃ r, executeCase files executor case = .ok r ∧
      (Dict.empty.update (completed.map fun r => (r.caseId, r))).get? case.id = some r := by
  have all := mapM_ok.mp made
  have order := schedule.perm (pendingCases selected resumed)
  obtain ⟨r, hr⟩ := mapM_isOk.mp ⟨completed, made⟩ case (order.mem_iff.mpr pending)
  refine ⟨r, hr, Dict.get?_update_of ?_ ?_⟩
  · obtain ⟨r', hr', same⟩ := forall₂_mem all.flip (order.mem_iff.mpr pending)
    obtain rfl := Except.ok.inj (hr.symm.trans same)
    rw [List.map_map, ← executeCase_caseId hr]
    exact List.mem_map_of_mem hr'
  · intro i hi own
    obtain ⟨r', hr', rfl⟩ := List.mem_map.mp hi
    obtain ⟨case', listed, made'⟩ := forall₂_mem all hr'
    have id : case'.id = case.id := (executeCase_caseId made').symm.trans own
    have one : case' = case := List.inj_on_of_nodup_map distinct
      (mem_pendingCases.mp (order.mem_iff.mp listed)).1 (mem_pendingCases.mp pending).1 id
    rw [one, hr] at made'
    exact (Except.ok.inj made').symm

/-- The collected results do not depend on the order of completion. -/
theorem collectResults_eq {selected : List EvaluationCase}
    (distinct : (selected.map (·.id)).Nodup) {resumed : Dict Str EvaluationRunCaseResult}
    {completed : List EvaluationRunCaseResult}
    (made : executePendingCases files executor schedule (pendingCases selected resumed) =
      .ok completed) :
    collectResults (ε := ε) completed resumed selected =
      selected.mapM (resultOf files executor resumed) := by
  rw [collectResults]
  refine mapM_congr fun case listed => ?_
  rw [Dict.get?_update_items, resultOf]
  cases taken : resumed.get? case.id with
  | some r => rfl
  | none =>
    obtain ⟨r, hr, found⟩ := get?_completed distinct made
      (mem_pendingCases.mpr ⟨listed, taken⟩)
    rw [Option.none_or, found, hr]

/-- The report of a run with these results. -/
def report (suite : EvaluationCaseSuite) (budget : Option IntOrFloat) (p : Prepared)
    (results : List EvaluationRunCaseResult) : EvaluationRun where
  schemaVersion := evaluationRunSchemaVersion
  suiteId := suite.suiteId
  fixtureSha256 := p.fixtureSha256
  selectedCaseIds := p.selected.map (·.id)
  maxExpectedCost := budget
  maxConcurrency := p.maxConcurrency
  results := results

theorem completeRun_ok {budget : Option IntOrFloat} {p : Prepared}
    (distinct : (p.selected.map (·.id)).Nodup) {r : EvaluationRun} :
    completeRun files suite executor schedule budget p = .ok r ↔
      ∃ results, p.selected.mapM (resultOf files executor p.resumed) = .ok results ∧
        r = report suite budget p results := by
  constructor
  · intro made
    obtain ⟨completed, executed, made⟩ := bind_ok.mp made
    obtain ⟨results, collected, made⟩ := bind_ok.mp made
    rw [collectResults_eq distinct executed] at collected
    exact ⟨results, collected, (Except.ok.inj made).symm⟩
  · rintro ⟨results, made, rfl⟩
    have each : ∀ case ∈ schedule.order p.pending, ∃ r, executeCase files executor case = .ok r := by
      intro case listed
      have pending := mem_pendingCases.mp ((schedule.perm p.pending).mem_iff.mp listed)
      obtain ⟨r, hr⟩ := mapM_isOk.mp ⟨results, made⟩ case pending.1
      rw [resultOf, pending.2] at hr
      exact ⟨r, hr⟩
    obtain ⟨completed, executed⟩ := mapM_isOk.mpr each
    have collected := (collectResults_eq distinct executed).trans made
    exact bind_ok.mpr ⟨completed, executed, bind_ok.mpr ⟨results, collected, rfl⟩⟩

/-! ## The checks before a run -/

theorem filtered_ok {α : Type} {x : Checked α} {a : α} :
    filtered (ε := ε) x = .ok a ↔ x = .ok a := by
  cases x with
  | ok b => simp [filtered]
  | error e => cases e <;> simp [filtered]

theorem checked_ok {α : Type} {x : Checked α} {a : α} :
    checked (ε := ε) x = .ok a ↔ x = .ok a := by
  cases x with
  | ok b => simp [checked]
  | error e => cases e <;> simp [checked]

/-- The cases of a selection are cases of the suite, in its order. -/
theorem filterEvaluationCases_sublist {cases selected : List EvaluationCase} {f : CaseFilters}
    (made : filterEvaluationCases cases f = .ok selected) : selected.Sublist cases := by
  simp only [filterEvaluationCases] at made
  obtain ⟨_, -, made⟩ := bind_ok.mp made
  obtain ⟨_, -, made⟩ := bind_ok.mp made
  obtain ⟨_, -, made⟩ := bind_ok.mp made
  obtain ⟨_, -, made⟩ := bind_ok.mp made
  obtain ⟨_, -, made⟩ := bind_ok.mp made
  obtain rfl := Except.ok.inj made
  exact List.filter_sublist

/-- What a preparation that succeeds has checked. -/
structure Prepares (files : Files) (suite : EvaluationCaseSuite) (o : RunOptions) (ε : Type)
    (p : Prepared) : Prop where
  limits : validateRunLimits (ε := ε) o = .ok p.maxConcurrency
  fixture : fixtureDigest (ε := ε) files = .ok p.fixtureSha256
  selected : filterEvaluationCases suite.cases o.filters = .ok p.selected
  some : p.selected ≠ []
  artifacts : p.selected.forM (verifyCaseArtifacts (ε := ε) files) = .ok ()
  resumed : resumedResults (ε := ε) files o.resumeFrom suite p.fixtureSha256 p.selected =
    .ok p.resumed

theorem rejectRunWhen_ok {c : Bool} {text : String} :
    rejectRunWhen (ε := ε) c text = .ok () ↔ c = false := by
  cases c <;> simp [rejectRunWhen, rejectRun]

theorem prepareRun_ok {p : Prepared} :
    prepareRun (ε := ε) files suite o = .ok p ↔ Prepares files suite o ε p := by
  constructor
  · intro made
    obtain ⟨maxConcurrency, limits, made⟩ := bind_ok.mp made
    obtain ⟨fixtureSha256, fixture, made⟩ := bind_ok.mp made
    obtain ⟨selected, filter, made⟩ := bind_ok.mp made
    obtain ⟨⟨⟩, some', made⟩ := bind_ok.mp made
    obtain ⟨⟨⟩, artifacts, made⟩ := bind_ok.mp made
    obtain ⟨resumed, taken, made⟩ := bind_ok.mp made
    obtain rfl := Except.ok.inj made
    exact ⟨limits, fixture, filtered_ok.mp filter,
      List.isEmpty_eq_false_iff.mp (rejectRunWhen_ok.mp some'), artifacts, taken⟩
  · rintro ⟨limits, fixture, filter, some', artifacts, taken⟩
    exact bind_ok.mpr ⟨_, limits, bind_ok.mpr ⟨_, fixture, bind_ok.mpr ⟨_, filtered_ok.mpr filter,
      bind_ok.mpr ⟨_, rejectRunWhen_ok.mpr (List.isEmpty_eq_false_iff.mpr some'),
        bind_ok.mpr ⟨_, artifacts, bind_ok.mpr ⟨_, taken, rfl⟩⟩⟩⟩⟩⟩

theorem Prepares.distinct {p : Prepared} (prepares : Prepares files suite o ε p) :
    (p.selected.map (·.id)).Nodup :=
  suite.distinct.sublist ((filterEvaluationCases_sublist prepares.selected).map _)

/-- A run whose preparation is known. -/
theorem runEvaluationCases_prepared {p : Prepared} (prepares : Prepares files suite o ε p) :
    runEvaluationCases files suite executor schedule o =
      match checkBudget o.maxExpectedCost p.pending with
      | .error e => ⟨.error e, []⟩
      | .ok () => ⟨completeRun files suite executor schedule o.maxExpectedCost p, p.pending⟩ := by
  have ready := prepareRun_ok.mpr prepares
  cases budget : checkBudget o.maxExpectedCost p.pending <;>
    simp only [runEvaluationCases, ready, budget]

/-- When a run returns a report. -/
theorem runEvaluationCases_ok {r : EvaluationRun} :
    (runEvaluationCases files suite executor schedule o).run = .ok r ↔
      ∃ p results, Prepares files suite o ε p ∧
        checkBudget (ε := ε) o.maxExpectedCost p.pending = .ok () ∧
        p.selected.mapM (resultOf files executor p.resumed) = .ok results ∧
        r = report suite o.maxExpectedCost p results := by
  constructor
  · intro made
    cases prepared : prepareRun (ε := ε) files suite o with
    | error e =>
      rw [runEvaluationCases, prepared] at made
      cases made
    | ok p =>
      have prepares := prepareRun_ok.mp prepared
      rw [runEvaluationCases_prepared prepares] at made
      cases within : checkBudget (ε := ε) o.maxExpectedCost p.pending with
      | error e =>
        rw [within] at made
        cases made
      | ok u =>
        rw [within] at made
        obtain ⟨results, done, same⟩ := (completeRun_ok prepares.distinct).mp made
        exact ⟨p, results, prepares, within, done, same⟩
  · rintro ⟨p, results, prepares, within, done, same⟩
    rw [runEvaluationCases_prepared prepares, within]
    exact (completeRun_ok prepares.distinct).mpr ⟨results, done, same⟩

/-! ## Concurrency -/

theorem validateRunLimits_ok {m : Int} : validateRunLimits (ε := ε) o = .ok m ↔
    validateConcurrency (ε := ε) o.maxConcurrency = .ok m ∧
      validateBudget (ε := ε) o.maxExpectedCost = .ok () := by
  constructor
  · intro made
    obtain ⟨n, first, made⟩ := bind_ok.mp made
    obtain ⟨⟨⟩, second, made⟩ := bind_ok.mp made
    obtain rfl := Except.ok.inj made
    exact ⟨first, second⟩
  · rintro ⟨first, second⟩
    exact bind_ok.mpr ⟨m, first, bind_ok.mpr ⟨(), second, rfl⟩⟩

theorem validateConcurrency_int {n : Int} (positive : 1 ≤ n) :
    validateConcurrency (ε := ε) (.int n) = .ok n := if_pos positive

/-- The preparation of a run with another concurrency. -/
theorem Prepares.withConcurrency {c : IntOrFloat} {p : Prepared} {n : Int} (positive : 1 ≤ n)
    (prepares : Prepares files suite { o with maxConcurrency := c } ε p) :
    Prepares files suite { o with maxConcurrency := .int n } ε { p with maxConcurrency := n } where
  limits := validateRunLimits_ok.mpr
    ⟨validateConcurrency_int positive, (validateRunLimits_ok.mp prepares.limits).2⟩
  fixture := prepares.fixture
  selected := prepares.selected
  some := prepares.some
  artifacts := prepares.artifacts
  resumed := prepares.resumed

/-- The report of a run under another concurrency and another order of completion. -/
theorem withConcurrency_run {m n : Int} (positive : 1 ≤ n) (schedule' : Schedule)
    {r : EvaluationRun}
    (made : (runEvaluationCases files suite executor schedule
      { o with maxConcurrency := .int m }).run = .ok r) :
    (runEvaluationCases files suite executor schedule'
      { o with maxConcurrency := .int n }).run = .ok { r with maxConcurrency := n } ∧
      r.maxConcurrency = m := by
  obtain ⟨p, results, prepares, within, done, rfl⟩ := runEvaluationCases_ok.mp made
  constructor
  · exact runEvaluationCases_ok.mpr ⟨{ p with maxConcurrency := n }, results,
      prepares.withConcurrency positive, within, done, rfl⟩
  · have limits := (validateRunLimits_ok.mp prepares.limits).1
    rw [validateConcurrency] at limits
    split at limits
    · exact (Except.ok.inj limits).symm
    · cases limits

theorem executed_withConcurrency {m n : Int} (first : 1 ≤ m) (second : 1 ≤ n)
    (schedule schedule' : Schedule) :
    (runEvaluationCases files suite executor schedule
      { o with maxConcurrency := .int m }).executed =
    (runEvaluationCases files suite executor schedule'
      { o with maxConcurrency := .int n }).executed := by
  cases prepared : prepareRun (ε := ε) files suite { o with maxConcurrency := .int m } with
  | ok p =>
    have prepares := prepareRun_ok.mp prepared
    rw [runEvaluationCases_prepared prepares,
      runEvaluationCases_prepared (prepares.withConcurrency second)]
    change (match checkBudget (ε := ε) o.maxExpectedCost p.pending with
      | .error e => _
      | .ok () => _ : Outcome ε).executed = (match checkBudget (ε := ε) o.maxExpectedCost p.pending
        with
      | .error e => _
      | .ok () => _ : Outcome ε).executed
    split <;> rfl
  | error e =>
    have refused : ∃ e', prepareRun (ε := ε) files suite { o with maxConcurrency := .int n } =
        .error e' := by
      cases prepared' : prepareRun (ε := ε) files suite { o with maxConcurrency := .int n } with
      | error e' => exact ⟨e', rfl⟩
      | ok p =>
        have prepares := (prepareRun_ok.mp prepared').withConcurrency first
        rw [prepareRun_ok.mpr prepares] at prepared
        cases prepared
    obtain ⟨e', refused⟩ := refused
    rw [runEvaluationCases, runEvaluationCases, prepared, refused]

/-! ## Resuming -/

/-- An earlier run of the suite, the fixture and the case versions, with observations that the
executor gives. It may cover any of the cases. -/
structure EarlierRun (files : Files) (suite : EvaluationCaseSuite) (executor : Executor ε)
    (earlier : EvaluationRun) : Prop where
  schemaVersion : earlier.schemaVersion = evaluationRunSchemaVersion
  suiteId : earlier.suiteId = suite.suiteId
  fixture : fixtureDigest (ε := ε) files = .ok earlier.fixtureSha256
  once : (earlier.results.map (·.caseId)).Nodup
  same : ∀ result ∈ earlier.results, ∀ case ∈ suite.cases, case.id = result.caseId →
    result.caseVersion = case.version ∧
    caseDigest (ε := ε) files case = .ok result.caseSha256 ∧
    ∃ o, executor case = .ok o ∧
      validatedObservation result.observation = validatedObservation o

/-- The marker of a result in a run that is resumed from `earlier`. -/
def markReused (earlier : EvaluationRun) (r : EvaluationRunCaseResult) : EvaluationRunCaseResult :=
  { r with reused := decide (r.caseId ∈ earlier.results.map (·.caseId)) }

/-- The cases of a run that `earlier` does not cover. -/
def uncovered (suite : EvaluationCaseSuite) (r earlier : EvaluationRun) : List EvaluationCase :=
  suite.cases.filter fun case =>
    case.id ∈ r.selectedCaseIds && case.id ∉ earlier.results.map (·.caseId)

theorem rejectAboutWhen_ok {c : Bool} {text : String} {value : Str} :
    rejectAboutWhen (ε := ε) c text value = .ok () ↔ c = false := by
  cases c <;> simp [rejectAboutWhen, rejectAbout]

section
variable {earlier : EvaluationRun} {selected : List EvaluationCase}
  {fresh : EvaluationCase → EvaluationRunCaseResult}

/-- A result of the earlier run is taken over as the fresh result of its case. -/
theorem resumeResult_ok (distinct : (selected.map (·.id)).Nodup) {result : EvaluationRunCaseResult}
    {resumed : Dict Str EvaluationRunCaseResult} (first : result.caseId ∉ resumed.keys)
    {case : EvaluationCase} (listed : case ∈ selected) (own : case.id = result.caseId)
    (version : result.caseVersion = case.version)
    (digest : caseDigest (ε := ε) files case = .ok result.caseSha256)
    (observed : ∃ o, executor case = .ok o ∧
      validatedObservation result.observation = validatedObservation o)
    (executed : executeCase files executor case = .ok (fresh case)) :
    resumeResult (ε := ε) files selected resumed result =
      .ok (resumed.set case.id { fresh case with reused := true }) := by
  have found : selected.find? (·.id = result.caseId) = some case :=
    (Table.find?_key distinct).mpr ⟨listed, own⟩
  obtain ⟨o, called, same⟩ := observed
  obtain ⟨o', digest', observation, called', hashed, valid, answer⟩ := executeCase_ok executed
  obtain rfl := Except.ok.inj (called.symm.trans called')
  obtain rfl := Except.ok.inj (digest.symm.trans hashed)
  rw [resumeResult, found]
  refine bind_ok.mpr ⟨(), rejectAboutWhen_ok.mpr (by simp [version]), bind_ok.mpr ⟨_, digest,
    bind_ok.mpr ⟨(), rejectAboutWhen_ok.mpr (by simp), bind_ok.mpr ⟨(),
      rejectAboutWhen_ok.mpr (by simpa using first), bind_ok.mpr ⟨observation, ?_, ?_⟩⟩⟩⟩⟩
  · rw [same]
    exact valid
  · rw [answer, own, version]
    rfl

/-- Results that are taken over one by one. -/
theorem resumeResults_ok (distinct : (selected.map (·.id)).Nodup)
    (sub : ∀ case ∈ selected, case ∈ suite.cases)
    (covers : EarlierRun files suite executor earlier)
    (executed : ∀ case ∈ selected, executeCase files executor case = .ok (fresh case))
    {results : List EvaluationRunCaseResult} (part : ∀ result ∈ results, result ∈ earlier.results)
    (once : (results.map (·.caseId)).Nodup) {resumed : Dict Str EvaluationRunCaseResult}
    (first : ∀ result ∈ results, result.caseId ∉ resumed.keys) :
    ∃ resumed', results.foldlM (resumeResult (ε := ε) files selected) resumed = .ok resumed' ∧
      ∀ case ∈ selected, resumed'.get? case.id =
        if case.id ∈ results.map (·.caseId) then some { fresh case with reused := true }
        else resumed.get? case.id := by
  induction results generalizing resumed with
  | nil => exact ⟨resumed, rfl, fun case _ => by simp⟩
  | cons result results ih =>
    rw [List.map_cons, List.nodup_cons] at once
    have later := fun r hr => part r (List.mem_cons_of_mem result hr)
    by_cases known : ∃ case ∈ selected, case.id = result.caseId
    · obtain ⟨case, listed, own⟩ := known
      obtain ⟨version, digest, observed⟩ :=
        covers.same result (part result List.mem_cons_self) case (sub case listed) own
      have step := resumeResult_ok distinct (first result List.mem_cons_self) listed own version
        digest observed (executed case listed)
      have unused : ∀ r ∈ results, r.caseId ∉
          (resumed.set case.id { fresh case with reused := true }).keys := by
        intro r hr used
        rcases Dict.mem_keys_set.mp used with same | used
        · exact once.1 (own ▸ same ▸ List.mem_map_of_mem hr)
        · exact first r (List.mem_cons_of_mem _ hr) used
      obtain ⟨resumed', made, found⟩ := ih later once.2 unused
      refine ⟨resumed', ?_, fun other hother => ?_⟩
      · rw [List.foldlM_cons, step]
        exact made
      · rw [found other hother, List.map_cons]
        by_cases same : other.id = case.id
        · obtain rfl := List.inj_on_of_nodup_map distinct hother listed same
          rw [if_neg (own ▸ once.1), Dict.get?_set_self, if_pos (own ▸ List.mem_cons_self)]
        · rw [Dict.get?_set_other _ _ same]
          have apart : other.id ≠ result.caseId := own ▸ same
          simp only [List.mem_cons, apart, false_or]
    · have missing : selected.find? (·.id = result.caseId) = none := by
        refine List.find?_eq_none.mpr fun case listed => ?_
        rw [decide_eq_true_eq]
        exact fun own => known ⟨case, listed, own⟩
      obtain ⟨resumed', made, found⟩ := ih later once.2
        fun r hr => first r (List.mem_cons_of_mem _ hr)
      refine ⟨resumed', ?_, fun other hother => ?_⟩
      · rw [List.foldlM_cons, resumeResult, missing]
        exact made
      · rw [found other hother, List.map_cons]
        have apart : other.id ≠ result.caseId := fun own => known ⟨other, hother, own⟩
        simp only [List.mem_cons, apart, false_or]

/-- What an earlier run leaves to execute, and the results it gives. -/
theorem resumedResults_ok (distinct : (selected.map (·.id)).Nodup)
    (sub : ∀ case ∈ selected, case ∈ suite.cases)
    (covers : EarlierRun files suite executor earlier)
    (executed : ∀ case ∈ selected, executeCase files executor case = .ok (fresh case)) :
    ∃ resumed, resumedResults (ε := ε) files (some earlier) suite earlier.fixtureSha256 selected =
        .ok resumed ∧
      ∀ case ∈ selected, resumed.get? case.id =
        if case.id ∈ earlier.results.map (·.caseId) then some { fresh case with reused := true }
        else none := by
  have unused : ∀ result ∈ earlier.results,
      result.caseId ∉ (Dict.empty : Dict Str EvaluationRunCaseResult).keys := fun _ _ => by simp
  obtain ⟨resumed, made, found⟩ := resumeResults_ok distinct sub covers executed
    (fun _ h => h) covers.once unused
  refine ⟨resumed, ?_, found⟩
  exact bind_ok.mpr ⟨(), rejectRunWhen_ok.mpr (by simp [covers.schemaVersion]), bind_ok.mpr ⟨(),
    rejectRunWhen_ok.mpr (by simp [covers.suiteId]), bind_ok.mpr ⟨(),
      rejectRunWhen_ok.mpr (by simp), made⟩⟩⟩

end

/-- The members of a sublist, found again by their ids. -/
theorem filter_sublist_ids {cases selected : List EvaluationCase} (sub : selected.Sublist cases)
    (distinct : (cases.map (·.id)).Nodup) (q : EvaluationCase → Bool) :
    cases.filter (fun case => case.id ∈ selected.map (·.id) && q case) = selected.filter q := by
  induction sub with
  | slnil => rfl
  | @cons selected cases case sub ih =>
    rw [List.map_cons, List.nodup_cons] at distinct
    have absent : case.id ∉ selected.map (·.id) := fun h => distinct.1 ((sub.map _).subset h)
    rw [List.filter_cons_of_neg (by simp [absent]), ih distinct.2]
  | @cons_cons selected cases case sub ih =>
    rw [List.map_cons, List.nodup_cons] at distinct
    have rest : ∀ other ∈ cases, (decide (other.id ∈ (case :: selected).map (·.id)) && q other) =
        (decide (other.id ∈ selected.map (·.id)) && q other) := by
      intro other listed
      have apart : other.id ≠ case.id :=
        fun same => distinct.1 (same ▸ List.mem_map_of_mem (f := (·.id)) listed)
      simp only [List.map_cons, List.mem_cons, apart, false_or]
    rw [List.filter_cons, List.filter_congr rest, ih distinct.2, List.filter_cons]
    simp

/-- What a call answers once the results of its cases are known. -/
theorem run_of_results {p : Prepared} (prepares : Prepares files suite o ε p)
    {results : List EvaluationRunCaseResult}
    (done : p.selected.mapM (resultOf files executor p.resumed) = .ok results) :
    runEvaluationCases files suite executor schedule o =
      match checkBudget o.maxExpectedCost p.pending with
      | .error e => ⟨.error e, []⟩
      | .ok () => ⟨.ok (report suite o.maxExpectedCost p results), p.pending⟩ := by
  rw [runEvaluationCases_prepared prepares,
    (completeRun_ok prepares.distinct).mpr ⟨results, done, rfl⟩]

/-- A fresh run without a budget, and the results it has. -/
theorem fresh_results {schedule' : Schedule} {r : EvaluationRun}
    (made : (runEvaluationCases files suite executor schedule'
      { o with maxExpectedCost := none, resumeFrom := none }).run = .ok r) :
    ∃ (p : Prepared) (fresh : EvaluationCase → EvaluationRunCaseResult),
      Prepares files suite { o with maxExpectedCost := none, resumeFrom := none } ε p ∧
      p.resumed = .empty ∧
      (∀ case ∈ p.selected, executeCase files executor case = .ok (fresh case)) ∧
      r = report suite none p (p.selected.map fresh) := by
  obtain ⟨p, results, prepares, -, done, rfl⟩ := runEvaluationCases_ok.mp made
  have none' : p.resumed = .empty := (Except.ok.inj prepares.resumed).symm
  rw [none'] at done
  obtain ⟨fresh, executed, rfl⟩ := mapM_ok_map done
  exact ⟨p, fresh, prepares, none', executed, rfl⟩

theorem uncovered_eq {p : Prepared} (prepares : Prepares files suite o ε p)
    (budget : Option IntOrFloat) (results : List EvaluationRunCaseResult) (earlier : EvaluationRun) :
    uncovered suite (report suite budget p results) earlier =
      p.selected.filter (·.id ∉ earlier.results.map (·.caseId)) :=
  filter_sublist_ids (filterEvaluationCases_sublist prepares.selected) suite.distinct _

variable (schedule) in
/-- A run that resumes from an earlier one executes the cases that are not covered, if their
expected cost is within the budget. -/
theorem resumed_run {earlier : EvaluationRun} (covers : EarlierRun files suite executor earlier)
    (valid : validateBudget (ε := ε) o.maxExpectedCost = .ok ()) {schedule' : Schedule}
    {r : EvaluationRun}
    (made : (runEvaluationCases files suite executor schedule'
      { o with maxExpectedCost := none, resumeFrom := none }).run = .ok r) :
    runEvaluationCases files suite executor schedule { o with resumeFrom := some earlier } =
      match checkBudget o.maxExpectedCost (uncovered suite r earlier) with
      | .error e => ⟨.error e, []⟩
      | .ok () => ⟨.ok { r with
          maxExpectedCost := o.maxExpectedCost
          results := r.results.map (markReused earlier) }, uncovered suite r earlier⟩ := by
  obtain ⟨p, fresh, prepares, -, executed, rfl⟩ := fresh_results made
  have sub := filterEvaluationCases_sublist prepares.selected
  obtain ⟨resumed, taken, found⟩ := resumedResults_ok prepares.distinct
    (fun case h => sub.subset h) covers executed
  have fixture : earlier.fixtureSha256 = p.fixtureSha256 :=
    Except.ok.inj (covers.fixture.symm.trans prepares.fixture)
  have prepares' : Prepares files suite { o with resumeFrom := some earlier } ε
      { p with resumed := resumed } :=
    { prepares with
      limits := validateRunLimits_ok.mpr ⟨(validateRunLimits_ok.mp prepares.limits).1, valid⟩
      resumed := fixture ▸ taken }
  have pending : Prepared.pending { p with resumed := resumed } =
      uncovered suite (report suite none p (p.selected.map fresh)) earlier := by
    rw [uncovered_eq prepares, Prepared.pending, pendingCases]
    refine List.filter_congr fun case listed => ?_
    rw [decide_eq_decide, ← Dict.get?_eq_none, found case listed]
    split_ifs with h <;> simp [h]
  have done : p.selected.mapM (resultOf files executor resumed) =
      .ok ((p.selected.map fresh).map (markReused earlier)) := by
    rw [List.map_map]
    refine mapM_of_map fun case listed => ?_
    obtain ⟨_, _, _, -, -, -, answer⟩ := executeCase_ok (executed case listed)
    have own := executeCase_caseId (executed case listed)
    rw [resultOf, found case listed, Function.comp_apply, markReused]
    by_cases h : case.id ∈ earlier.results.map (·.caseId)
    · rw [if_pos h, own, decide_eq_true h, ← own]
    · rw [if_neg h, own, decide_eq_false h]
      simp only [executed case listed, answer]
  rw [run_of_results prepares' done, pending]
  rfl

variable (schedule) in
/-- The same call without an earlier run. -/
theorem fresh_run (valid : validateBudget (ε := ε) o.maxExpectedCost = .ok ())
    {schedule' : Schedule} {r : EvaluationRun}
    (made : (runEvaluationCases files suite executor schedule'
      { o with maxExpectedCost := none, resumeFrom := none }).run = .ok r) :
    runEvaluationCases files suite executor schedule { o with resumeFrom := none } =
      match checkBudget o.maxExpectedCost (suite.cases.filter (·.id ∈ r.selectedCaseIds)) with
      | .error e => ⟨.error e, []⟩
      | .ok () => ⟨.ok { r with maxExpectedCost := o.maxExpectedCost },
          suite.cases.filter (·.id ∈ r.selectedCaseIds)⟩ := by
  obtain ⟨p, fresh, prepares, none', executed, rfl⟩ := fresh_results made
  have prepares' : Prepares files suite { o with resumeFrom := none } ε p :=
    { prepares with
      limits := validateRunLimits_ok.mpr ⟨(validateRunLimits_ok.mp prepares.limits).1, valid⟩ }
  have pending : p.pending = suite.cases.filter
      (·.id ∈ (report suite none p (p.selected.map fresh)).selectedCaseIds) := by
    have all := filter_sublist_ids (filterEvaluationCases_sublist prepares.selected)
      suite.distinct fun _ => true
    simp only [Bool.and_true, List.filter_true] at all
    rw [Prepared.pending, pendingCases, none', report]
    simp only [Dict.keys_empty, List.not_mem_nil, not_false_eq_true, decide_true, List.filter_true]
    exact all.symm
  have done : p.selected.mapM (resultOf files executor p.resumed) =
      .ok (p.selected.map fresh) := by
    rw [none']
    exact mapM_of_map executed
  rw [run_of_results prepares' done, pending]
  rfl

/-- What the runner returns without resuming is an earlier run for every later call. -/
theorem earlierRun_of_run {r : EvaluationRun} (fresh : o.resumeFrom = none)
    (made : (runEvaluationCases files suite executor schedule o).run = .ok r) :
    EarlierRun files suite executor r := by
  obtain ⟨p, results, prepares, -, done, rfl⟩ := runEvaluationCases_ok.mp made
  have none' : p.resumed = .empty := by
    have taken := prepares.resumed
    rw [fresh] at taken
    exact (Except.ok.inj taken).symm
  rw [none'] at done
  obtain ⟨result, executed, rfl⟩ := mapM_ok_map done
  have sub := filterEvaluationCases_sublist prepares.selected
  refine ⟨rfl, rfl, prepares.fixture, ?_, ?_⟩
  · have ids : (p.selected.map result).map (·.caseId) = p.selected.map (·.id) := by
      rw [List.map_map]
      exact List.map_congr_left fun case listed => executeCase_caseId (executed case listed)
    exact ids ▸ prepares.distinct
  · intro r hr case listed own
    obtain ⟨case', listed', rfl⟩ := List.mem_map.mp hr
    have own' : case.id = case'.id := own.trans (executeCase_caseId (executed case' listed'))
    obtain rfl := List.inj_on_of_nodup_map suite.distinct listed (sub.subset listed') own'
    obtain ⟨o, digest, observation, called, hashed, valid, answer⟩ :=
      executeCase_ok (executed case listed')
    rw [answer]
    refine ⟨rfl, hashed, o, called, ?_⟩
    rw [checked_ok.mp valid]
    exact (validatedObservation_valid (checked_ok.mp valid)).validated

/-- The ids of the cases that a call selects. -/
def selectedIds (suite : EvaluationCaseSuite) (o : RunOptions) : List Str :=
  match filterEvaluationCases suite.cases o.filters with
  | .ok selected => selected.map (·.id)
  | .error _ => []

/-- Which cases a fresh run selects and reports on. -/
theorem fresh_ids {r : EvaluationRun} (fresh : o.resumeFrom = none)
    (made : (runEvaluationCases files suite executor schedule o).run = .ok r) :
    r.selectedCaseIds = selectedIds suite o ∧
      r.results.map (·.caseId) = selectedIds suite o := by
  obtain ⟨p, results, prepares, -, done, rfl⟩ := runEvaluationCases_ok.mp made
  have none' : p.resumed = .empty := by
    have taken := prepares.resumed
    rw [fresh] at taken
    exact (Except.ok.inj taken).symm
  rw [none'] at done
  obtain ⟨result, executed, rfl⟩ := mapM_ok_map done
  rw [selectedIds, prepares.selected]
  refine ⟨rfl, ?_⟩
  rw [report, List.map_map]
  exact List.map_congr_left fun case listed => executeCase_caseId (executed case listed)

/-- Concurrency and the order of completion change nothing but the reported concurrency. A resumed
run executes the cases that the earlier run does not cover and reports what a fresh run does; the
budget of each call refuses by the expected cost of the cases that the call executes. -/
theorem runs_agree (files : Files) (suite : EvaluationCaseSuite) (executor : Executor ε)
    (schedule : Schedule) (o : RunOptions) :
    (∀ n : Int, 1 ≤ n →
      (∀ r, (runEvaluationCases files suite executor schedule
          { o with maxConcurrency := .int n }).run = .ok r ↔
        r.maxConcurrency = n ∧ (runEvaluationCases files suite executor .sequential
          { o with maxConcurrency := .int 1 }).run = .ok { r with maxConcurrency := 1 }) ∧
      (runEvaluationCases files suite executor schedule
          { o with maxConcurrency := .int n }).executed =
        (runEvaluationCases files suite executor .sequential
          { o with maxConcurrency := .int 1 }).executed) ∧
    ∀ earlier, EarlierRun files suite executor earlier →
      validateBudget (ε := ε) o.maxExpectedCost = .ok () →
      ∀ r, (runEvaluationCases files suite executor .sequential
          { o with maxExpectedCost := none, resumeFrom := none }).run = .ok r →
        runEvaluationCases files suite executor schedule { o with resumeFrom := none } =
          (match checkBudget o.maxExpectedCost (suite.cases.filter (·.id ∈ r.selectedCaseIds)) with
          | .error e => ⟨.error e, []⟩
          | .ok () => ⟨.ok { r with maxExpectedCost := o.maxExpectedCost },
              suite.cases.filter (·.id ∈ r.selectedCaseIds)⟩) ∧
        runEvaluationCases files suite executor schedule { o with resumeFrom := some earlier } =
          (match checkBudget o.maxExpectedCost (uncovered suite r earlier) with
          | .error e => ⟨.error e, []⟩
          | .ok () => ⟨.ok { r with
              maxExpectedCost := o.maxExpectedCost
              results := r.results.map (markReused earlier) }, uncovered suite r earlier⟩) := by
  constructor
  · intro n positive
    refine ⟨fun r => ⟨fun made => ?_, ?_⟩, executed_withConcurrency positive le_rfl _ _⟩
    · obtain ⟨sequential, same⟩ := withConcurrency_run (n := 1) le_rfl .sequential made
      exact ⟨same, sequential⟩
    · rintro ⟨rfl, made⟩
      exact (withConcurrency_run positive schedule made).1
  · intro earlier covers valid r made
    exact ⟨fresh_run schedule valid made, resumed_run schedule covers valid made⟩

/-! ## Two small suites -/

def sampleArtifact : EvaluationArtifact := ⟨lit "A", lit "a.md", hexdigest 0⟩

def sampleCase (id : Str) (cost : IntOrFloat) : EvaluationCase where
  id := id
  version := 1
  split := lit "holdout"
  category := lit "c"
  tags := [lit "t"]
  criticality := lit "low"
  runMode := lit "m"
  sideEffectSchema := sideEffectsSchemaVersion
  inputs := ⟨[sampleArtifact], [], lit "u"⟩
  expected := ⟨[], [], [], lit "p", byFieldName fun _ => 0, lit "s", cost⟩

def sampleExecutor : Executor Empty := fun case =>
  .ok ⟨lit "p", byFieldName fun _ => .int 0, [], [], case.expected.maximumExpectedCost⟩

def sampleFiles : Files := ⟨fun _ => 0, some [], fun _ => .file []⟩

def half : Finite := ⟨false, 2 ^ 1073, by decide +kernel⟩

/-- The cost of all cases is rounded to 2^53, that of the last two is 2^53 + 1. -/
def roundedSuite : EvaluationCaseSuite where
  schemaVersion := evaluationCasesSchemaVersion
  suiteId := lit "s"
  cases := [sampleCase (lit "a") (.float (.finite half)), sampleCase (lit "b") (.int (2 ^ 53)),
    sampleCase (lit "c") (.int 1)]
  distinct := by decide +kernel

def evenSuite : EvaluationCaseSuite where
  schemaVersion := evaluationCasesSchemaVersion
  suiteId := lit "s"
  cases := [sampleCase (lit "a") (.int 6), sampleCase (lit "b") (.int 6)]
  distinct := by decide +kernel

def sampleOptions (budget : Option Int) : RunOptions :=
  ⟨.none, budget.map .int, .int 1, none⟩

/-- The call that selects the first case alone. -/
def firstOnly : RunOptions :=
  { sampleOptions none with filters := { CaseFilters.none with caseIds := some [lit "a"] } }

theorem exists_run {x : Except (RunError Empty) EvaluationRun} (ok : x.isOk = true) :
    ∃ r, x = .ok r := by
  cases x with
  | ok r => exact ⟨r, rfl⟩
  | error e => cases ok

theorem rounded_within : checkBudget (ε := Empty) (some (.int (2 ^ 53)))
    (roundedSuite.cases.filter (·.id ∈ [lit "a", lit "b", lit "c"])) = .ok () := by
  decide +kernel

theorem rounded_rest_over : checkBudget (ε := Empty) (some (.int (2 ^ 53)))
    (roundedSuite.cases.filter fun case =>
      case.id ∈ [lit "a", lit "b", lit "c"] && case.id ∉ [lit "a"]) =
    rejectRun "Selected evaluation cases exceed the configured expected-cost budget" := by
  decide +kernel

/-- A fresh run that the budget lets through, and a resumed one that it refuses. -/
theorem resumed_run_refused : ∃ earlier r,
    EarlierRun sampleFiles roundedSuite sampleExecutor earlier ∧
    (runEvaluationCases sampleFiles roundedSuite sampleExecutor .sequential
      (sampleOptions (some (2 ^ 53)))).run = .ok r ∧
    runEvaluationCases sampleFiles roundedSuite sampleExecutor .sequential
      { sampleOptions (some (2 ^ 53)) with resumeFrom := some earlier } =
      ⟨rejectRun "Selected evaluation cases exceed the configured expected-cost budget", []⟩ := by
  obtain ⟨earlier, first⟩ := exists_run (x := (runEvaluationCases sampleFiles roundedSuite
    sampleExecutor .sequential firstOnly).run) (by decide +kernel)
  obtain ⟨r, fresh⟩ := exists_run (x := (runEvaluationCases sampleFiles roundedSuite
    sampleExecutor .sequential (sampleOptions none)).run) (by decide +kernel)
  have covers := earlierRun_of_run rfl first
  have every : r.selectedCaseIds = [lit "a", lit "b", lit "c"] :=
    (fresh_ids rfl fresh).1.trans (by decide +kernel)
  have one : earlier.results.map (·.caseId) = [lit "a"] :=
    (fresh_ids rfl first).2.trans (by decide +kernel)
  have whole := fresh_run (o := sampleOptions (some (2 ^ 53))) .sequential
    (by decide +kernel) fresh
  have rest := resumed_run (o := sampleOptions (some (2 ^ 53))) .sequential covers
    (by decide +kernel) fresh
  have within : checkBudget (ε := Empty) (sampleOptions (some (2 ^ 53))).maxExpectedCost
      (roundedSuite.cases.filter (·.id ∈ r.selectedCaseIds)) = .ok () := by
    rw [every]
    exact rounded_within
  have over' : checkBudget (ε := Empty) (sampleOptions (some (2 ^ 53))).maxExpectedCost
      (uncovered roundedSuite r earlier) =
        rejectRun "Selected evaluation cases exceed the configured expected-cost budget" := by
    rw [uncovered, every, one]
    exact rounded_rest_over
  rw [within] at whole
  rw [over'] at rest
  exact ⟨earlier, _, covers, congrArg Outcome.run whole, rest⟩

/-- Two cases of cost six under a budget of ten: the run is refused, and resumed after the first
case it is not. -/
theorem runs_agree_sample : ∃ earlier r : EvaluationRun,
    (∀ n : Int, 1 ≤ n → ∀ schedule, (runEvaluationCases sampleFiles evenSuite sampleExecutor
      schedule { sampleOptions none with maxConcurrency := .int n }).run =
        .ok { r with maxConcurrency := n }) ∧
    runEvaluationCases sampleFiles evenSuite sampleExecutor .sequential (sampleOptions (some 10)) =
      ⟨rejectRun "Selected evaluation cases exceed the configured expected-cost budget", []⟩ ∧
    runEvaluationCases sampleFiles evenSuite sampleExecutor .sequential
      { sampleOptions (some 10) with resumeFrom := some earlier } =
      ⟨.ok { r with
          maxExpectedCost := some (.int 10)
          results := r.results.map (markReused earlier) }, [sampleCase (lit "b") (.int 6)]⟩ := by
  obtain ⟨earlier, first⟩ := exists_run (x := (runEvaluationCases sampleFiles evenSuite
    sampleExecutor .sequential firstOnly).run) (by decide +kernel)
  obtain ⟨r, fresh⟩ := exists_run (x := (runEvaluationCases sampleFiles evenSuite
    sampleExecutor .sequential (sampleOptions none)).run) (by decide +kernel)
  have covers := earlierRun_of_run rfl first
  have every : r.selectedCaseIds = [lit "a", lit "b"] :=
    (fresh_ids rfl fresh).1.trans (by decide +kernel)
  have one : earlier.results.map (·.caseId) = [lit "a"] :=
    (fresh_ids rfl first).2.trans (by decide +kernel)
  obtain ⟨whole, rest⟩ := (runs_agree sampleFiles evenSuite sampleExecutor .sequential
    (sampleOptions (some 10))).2 earlier covers (by decide +kernel) r fresh
  have left : uncovered evenSuite r earlier = [sampleCase (lit "b") (.int 6)] := by
    rw [uncovered, every, one]
    rfl
  rw [every, show checkBudget (ε := Empty) (sampleOptions (some 10)).maxExpectedCost
    (evenSuite.cases.filter (·.id ∈ [lit "a", lit "b"])) =
      rejectRun "Selected evaluation cases exceed the configured expected-cost budget" by
    decide +kernel] at whole
  rw [left, show checkBudget (ε := Empty) (sampleOptions (some 10)).maxExpectedCost
    [sampleCase (lit "b") (.int 6)] = .ok () by decide +kernel] at rest
  refine ⟨earlier, r, fun n positive schedule => ?_, whole, rest⟩
  refine (((runs_agree sampleFiles evenSuite sampleExecutor schedule
    (sampleOptions none)).1 n positive).1 _).mpr ⟨rfl, ?_⟩
  have single : r.maxConcurrency = 1 := by
    obtain ⟨_, same⟩ := withConcurrency_run (n := 1) le_rfl .sequential
      (o := sampleOptions none) (m := 1) fresh
    exact same
  have same : ({ r with maxConcurrency := 1 } : EvaluationRun) = r := by rw [← single]
  exact fresh.trans (congrArg Except.ok same.symm)

end QaCopilot.Evaluation
