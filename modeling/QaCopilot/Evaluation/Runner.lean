import QaCopilot.Evaluation.Cases
import QaCopilot.Lib.Results

/-!
# Runs of evaluation cases

`run_evaluation_cases`: the checks before a run, the execution of the cases that no earlier run
covers, and the report. The executions of a run complete in an order of the thread pool.
-/

namespace QaCopilot.Evaluation

open Python Results

def evaluationRunSchemaVersion : Str := lit "evaluation-run/v1"

structure EvaluationObservation where
  boundary : Str
  sideEffects : Dict Str IntOrFloat
  groundTruthIds : List Str
  sourceReferences : List Str
  cost : IntOrFloat

structure EvaluationRunCaseResult where
  caseId : Str
  caseVersion : Int
  caseSha256 : Str
  observation : EvaluationObservation
  reused : Bool

structure EvaluationRun where
  schemaVersion : Str
  suiteId : Str
  fixtureSha256 : Str
  selectedCaseIds : List Str
  maxExpectedCost : Option IntOrFloat
  maxConcurrency : Int
  results : List EvaluationRunCaseResult

/-- `EvaluationRunRejected`, the `EvaluationCasesRejected` of a filter, the exceptions of the
standard library, and an exception of the executor. -/
inductive RunError (ε : Type) where
  | rejected (r : Rejection)
  | filter (r : Rejection)
  | overflow
  | value
  | recursion
  | os
  | key
  | executor (e : ε)
deriving DecidableEq

/-- A path of an artifact under the resolved repository root. -/
inductive Located where
  | outside
  | missing
  | file (content : Bytes)

/-- What a run reads: the file of the fixture, and the repository. -/
structure Files where
  sha256 : Bytes → BitVec 256
  fixture : Option Bytes
  locate : Str → Located

/-- The order in which the executions of a run complete. -/
structure Schedule where
  order : List EvaluationCase → List EvaluationCase
  perm : ∀ cases, (order cases).Perm cases

def Schedule.sequential : Schedule := ⟨id, fun _ => .refl _⟩

/-- The keyword arguments of `run_evaluation_cases`. -/
structure RunOptions where
  filters : CaseFilters
  maxExpectedCost : Option IntOrFloat
  maxConcurrency : IntOrFloat
  resumeFrom : Option EvaluationRun

abbrev Executor (ε : Type) := EvaluationCase → Except ε EvaluationObservation

/-! ## Observations -/

/-- `_distinct_texts` -/
def distinctTexts (values : List Str) (label : String) : Checked (List Str) := do
  let normalised := values.map strip
  rejectWhen (normalised.any (· = [])) (label ++ " must contain non-empty text")
  rejectWhen (!decide normalised.Nodup) (label ++ " must not contain duplicate values")
  return normalised

/-- An `int` that is no `bool`, and not negative. -/
def isCount : IntOrFloat → Bool
  | .int n => 0 ≤ n
  | _ => false

/-- `_validated_observation` -/
def validatedObservation (o : EvaluationObservation) : Checked EvaluationObservation := do
  rejectWhen (strip o.boundary = []) "Evaluation observation boundary must be non-empty"
  rejectWhen (!decide (o.sideEffects.keys ⊆ sideEffectFieldNames.map lit ∧
      sideEffectFieldNames.map lit ⊆ o.sideEffects.keys))
    "Evaluation observation must use the exact side-effects/v1 fields"
  rejectWhen (o.sideEffects.items.any fun i => !isCount i.2)
    "Evaluation observation side effects must be non-negative integers"
  let cost ← orOverflow o.cost.nonNegative
  rejectWhen (!cost) "Evaluation observation cost must be a finite non-negative number"
  let groundTruthIds ← distinctTexts o.groundTruthIds "Evaluation observation ground-truth IDs"
  let sourceReferences ← distinctTexts o.sourceReferences
    "Evaluation observation source references"
  return {
    boundary := strip o.boundary
    sideEffects := byFieldName fun name => (o.sideEffects.get? (lit name)).getD (.int 0)
    groundTruthIds := groundTruthIds
    sourceReferences := sourceReferences
    cost := o.cost }

/-- An observation as `_validated_observation` returns it. -/
structure EvaluationObservation.Valid (o : EvaluationObservation) : Prop where
  boundary : Trimmed o.boundary
  sideEffects : ∃ count : String → Nat, o.sideEffects = byFieldName fun name => .int (count name)
  groundTruthIds : (∀ s ∈ o.groundTruthIds, Trimmed s) ∧ o.groundTruthIds.Nodup
  sourceReferences : (∀ s ∈ o.sourceReferences, Trimmed s) ∧ o.sourceReferences.Nodup
  cost : o.cost.nonNegative = .ok true

theorem byFieldName_congr {ν : Type} {f g : String → ν}
    (same : ∀ name ∈ sortedFieldNames, f name = g name) : byFieldName f = byFieldName g := by
  rw [byFieldName, byFieldName, Dict.mk.injEq]
  exact List.map_congr_left fun name listed => by rw [same name listed]

theorem keys_byFieldName {ν : Type} (f : String → ν) :
    (byFieldName f).keys = sortedFieldNames.map lit := by
  rw [Dict.keys, byFieldName, List.map_map]
  rfl

theorem get?_byFieldName {ν : Type} (f : String → ν) {name : String}
    (listed : name ∈ sortedFieldNames) : (byFieldName f).get? (lit name) = some (f name) :=
  Dict.get?_eq_some.mpr (List.mem_map.mpr ⟨name, listed, rfl⟩)

theorem distinctTexts_ok {values texts : List Str} {label : String} :
    distinctTexts values label = .ok texts ↔
      texts = values.map strip ∧ (∀ s ∈ texts, Trimmed s) ∧ texts.Nodup := by
  have blank : (values.map strip).any (· = []) = false ↔ ∀ s ∈ values.map strip, Trimmed s := by
    simp only [List.any_eq_false, decide_eq_true_eq, List.forall_mem_map, Trimmed, strip_strip,
      true_and, ne_eq]
  constructor
  · intro made
    obtain ⟨⟨⟩, first, made⟩ := bind_ok.mp made
    obtain ⟨⟨⟩, second, made⟩ := bind_ok.mp made
    obtain rfl := Except.ok.inj made
    exact ⟨rfl, blank.mp (rejectWhen_ok.mp first), by simpa using rejectWhen_ok.mp second⟩
  · rintro ⟨rfl, trimmed, distinct⟩
    exact bind_ok.mpr ⟨(), rejectWhen_ok.mpr (blank.mpr trimmed), bind_ok.mpr ⟨(),
      rejectWhen_ok.mpr (by simpa using distinct), rfl⟩⟩

theorem distinctTexts_trimmed {values : List Str} (trimmed : ∀ s ∈ values, Trimmed s)
    (distinct : values.Nodup) (label : String) : distinctTexts values label = .ok values := by
  have kept : values.map strip = values.map id :=
    List.map_congr_left fun s hs => (trimmed s hs).1
  rw [List.map_id] at kept
  exact distinctTexts_ok.mpr ⟨kept.symm, trimmed, distinct⟩

/-- The value of a count. -/
def countOf : IntOrFloat → Nat
  | .int n => n.toNat
  | _ => 0

theorem isCount_int {v : IntOrFloat} (count : isCount v = true) : v = .int (countOf v) := by
  cases v with
  | int n =>
    have positive : 0 ≤ n := of_decide_eq_true count
    rw [countOf, Int.toNat_of_nonneg positive]
  | bool b => cases count
  | float x => cases count

theorem validatedObservation_valid {o v : EvaluationObservation}
    (made : validatedObservation o = .ok v) : v.Valid := by
  obtain ⟨⟨⟩, boundary, made⟩ := bind_ok.mp made
  obtain ⟨⟨⟩, names, made⟩ := bind_ok.mp made
  obtain ⟨⟨⟩, counts, made⟩ := bind_ok.mp made
  obtain ⟨cost, finite, made⟩ := bind_ok.mp made
  obtain ⟨⟨⟩, accepted, made⟩ := bind_ok.mp made
  obtain ⟨groundTruthIds, first, made⟩ := bind_ok.mp made
  obtain ⟨sourceReferences, second, made⟩ := bind_ok.mp made
  obtain rfl := Except.ok.inj made
  refine ⟨⟨strip_strip _, by simpa using rejectWhen_ok.mp boundary⟩,
    ⟨fun name => countOf ((o.sideEffects.get? (lit name)).getD (.int 0)), ?_⟩,
    (distinctTexts_ok.mp first).2, (distinctTexts_ok.mp second).2, ?_⟩
  · refine byFieldName_congr fun name listed => isCount_int ?_
    have present : lit name ∈ o.sideEffects.keys := by
      have all := rejectWhen_ok.mp names
      rw [Bool.not_eq_false', decide_eq_true_eq] at all
      exact all.2 (List.mem_map_of_mem (sortedFieldNames_perm.mem_iff.mp listed))
    obtain ⟨value, found⟩ := Option.isSome_iff_exists.mp (Dict.get?_isSome.mpr present)
    have counted := List.any_eq_false.mp (rejectWhen_ok.mp counts) _ (Dict.get?_eq_some.mp found)
    rw [found]
    simpa using counted
  · have accepted' := rejectWhen_ok.mp accepted
    rw [Bool.not_eq_false'] at accepted'
    subst accepted'
    cases checked : o.cost.nonNegative with
    | error e =>
      rw [checked] at finite
      cases finite
    | ok b =>
      rw [checked] at finite
      exact congrArg Except.ok (Except.ok.inj finite)

theorem EvaluationObservation.Valid.validated {v : EvaluationObservation} (valid : v.Valid) :
    validatedObservation v = .ok v := by
  obtain ⟨boundary, sideEffects, groundTruthIds, sourceReferences, cost⟩ := v
  obtain ⟨trimmed, ⟨count, same⟩, ids, references, accepted⟩ := valid
  simp only at trimmed same ids references accepted
  subst same
  generalize known : (fun name => IntOrFloat.int (count name)) = value
  have effects : (byFieldName fun name => ((byFieldName value).get? (lit name)).getD (.int 0)) =
      byFieldName value := by
    refine byFieldName_congr fun name listed => ?_
    rw [get?_byFieldName value listed]
    rfl
  have names : (byFieldName value).keys ⊆ sideEffectFieldNames.map lit ∧
      sideEffectFieldNames.map lit ⊆ (byFieldName value).keys := by
    rw [keys_byFieldName]
    exact ⟨(sortedFieldNames_perm.map lit).subset, (sortedFieldNames_perm.map lit).symm.subset⟩
  have counted : ((byFieldName value).items.any fun i => !isCount i.2) = false := by
    refine List.any_eq_false.mpr fun i listed => ?_
    obtain ⟨name, -, rfl⟩ := List.mem_map.mp listed
    rw [← known]
    simp [isCount]
  simp only [validatedObservation, trimmed.1, trimmed.2, names, counted, accepted, effects,
    distinctTexts_trimmed ids.1 ids.2, distinctTexts_trimmed references.1 references.2]
  rfl

section
variable {ε : Type}

/-- A check of the runner. -/
def checked {α : Type} : Checked α → Except (RunError ε) α
  | .ok a => .ok a
  | .error (.rejected r) => .error (.rejected r)
  | .error .overflow => .error .overflow

/-- A check of the filters. -/
def filtered {α : Type} : Checked α → Except (RunError ε) α
  | .ok a => .ok a
  | .error (.rejected r) => .error (.filter r)
  | .error .overflow => .error .overflow

def rejectRun {α : Type} (text : String) : Except (RunError ε) α :=
  .error (.rejected (.message text))

def rejectAbout {α : Type} (text : String) (value : Str) : Except (RunError ε) α :=
  .error (.rejected (.about text value))

def rejectRunWhen (c : Bool) (text : String) : Except (RunError ε) Unit :=
  if c then rejectRun text else .ok ()

def rejectAboutWhen (c : Bool) (text : String) (value : Str) : Except (RunError ε) Unit :=
  if c then rejectAbout text value else .ok ()

/-- The digest of a case, of which `json.dumps` may fail. -/
def caseDigest (files : Files) (case : EvaluationCase) : Except (RunError ε) Str :=
  match evaluationCaseSha256 files.sha256 case with
  | .ok digest => .ok digest
  | .error .value => .error .value
  | .error .recursion => .error .recursion

/-! ## Before the executions -/

/-- The first check of `_validate_run_limits`; the concurrency that it accepts. -/
def validateConcurrency : IntOrFloat → Except (RunError ε) Int
  | .int n => if 1 ≤ n then .ok n else rejectRun "max_concurrency must be at least one"
  | _ => rejectRun "max_concurrency must be at least one"

/-- The second check of `_validate_run_limits`. -/
def validateBudget : Option IntOrFloat → Except (RunError ε) Unit
  | none => .ok ()
  | some cost => do
    let accepted ← checked (orOverflow cost.nonNegative)
    rejectRunWhen (!accepted) "max_expected_cost must be a finite non-negative number"

/-- `_validate_run_limits` -/
def validateRunLimits (o : RunOptions) : Except (RunError ε) Int := do
  let maxConcurrency ← validateConcurrency o.maxConcurrency
  validateBudget o.maxExpectedCost
  return maxConcurrency

/-- One artifact of `_verify_case_artifacts`. -/
def verifyArtifact (files : Files) (artifact : EvaluationArtifact) : Except (RunError ε) Unit :=
  match files.locate artifact.path with
  | .outside => rejectAbout "Artifact path escapes the repository root: " artifact.path
  | .missing => rejectAbout "Evaluation artifact does not exist: " artifact.path
  | .file content =>
    if hexdigest (files.sha256 content) = artifact.sha256 then .ok ()
    else rejectAbout "Evaluation artifact hash differs: " artifact.artifactId

/-- `_verify_case_artifacts` -/
def verifyCaseArtifacts (files : Files) (case : EvaluationCase) : Except (RunError ε) Unit :=
  (case.inputs.artifacts ++ case.inputs.overlays).forM (verifyArtifact files)

/-- One result of an earlier run, taken over for the case of its id. -/
def resumeResult (files : Files) (selected : List EvaluationCase)
    (resumed : Dict Str EvaluationRunCaseResult) (result : EvaluationRunCaseResult) :
    Except (RunError ε) (Dict Str EvaluationRunCaseResult) :=
  match selected.find? (·.id = result.caseId) with
  | none => .ok resumed
  | some case => do
    rejectAboutWhen (result.caseVersion ≠ case.version)
      "Resume report case version differs for " case.id
    let digest ← caseDigest files case
    rejectAboutWhen (result.caseSha256 ≠ digest)
      "Resume report case provenance differs for " case.id
    rejectAboutWhen (result.caseId ∈ resumed.keys)
      "Resume report contains duplicate result for " case.id
    let observation ← checked (validatedObservation result.observation)
    return resumed.set result.caseId
      ⟨result.caseId, result.caseVersion, result.caseSha256, observation, true⟩

/-- `_resumed_results` -/
def resumedResults (files : Files) (resumeFrom : Option EvaluationRun) (suite : EvaluationCaseSuite)
    (fixtureSha256 : Str) (selected : List EvaluationCase) :
    Except (RunError ε) (Dict Str EvaluationRunCaseResult) :=
  match resumeFrom with
  | none => .ok .empty
  | some earlier => do
    rejectRunWhen (earlier.schemaVersion ≠ evaluationRunSchemaVersion)
      "Resume report has an unsupported schema version"
    rejectRunWhen (earlier.suiteId ≠ suite.suiteId)
      "Resume report belongs to another evaluation suite"
    rejectRunWhen (earlier.fixtureSha256 ≠ fixtureSha256)
      "Resume report fixture provenance does not match"
    earlier.results.foldlM (resumeResult files selected) .empty

/-- The cases without a resumed result. -/
def pendingCases (selected : List EvaluationCase) (resumed : Dict Str EvaluationRunCaseResult) :
    List EvaluationCase :=
  selected.filter (·.id ∉ resumed.keys)

/-- The check of the expected cost of the cases that are to be executed. -/
def checkBudget (budget : Option IntOrFloat) (pending : List EvaluationCase) :
    Except (RunError ε) Unit := do
  let cost ← checked (orOverflow (IntOrFloat.sum (pending.map (·.expected.maximumExpectedCost))))
  rejectRunWhen (budget.any (·.lt cost))
    "Selected evaluation cases exceed the configured expected-cost budget"

/-- `_sha256_file(fixture_path)` -/
def fixtureDigest (files : Files) : Except (RunError ε) Str :=
  match files.fixture with
  | none => .error .os
  | some content => .ok (hexdigest (files.sha256 content))

/-- What is known of a run before its executions. -/
structure Prepared where
  maxConcurrency : Int
  fixtureSha256 : Str
  selected : List EvaluationCase
  resumed : Dict Str EvaluationRunCaseResult

def Prepared.pending (p : Prepared) : List EvaluationCase := pendingCases p.selected p.resumed

/-- The checks and reads of a run up to the budget. -/
def prepareRun (files : Files) (suite : EvaluationCaseSuite) (o : RunOptions) :
    Except (RunError ε) Prepared := do
  let maxConcurrency ← validateRunLimits o
  let fixtureSha256 ← fixtureDigest files
  let selected ← filtered (filterEvaluationCases suite.cases o.filters)
  rejectRunWhen selected.isEmpty "Evaluation selection did not match any cases"
  selected.forM (verifyCaseArtifacts files)
  let resumed ← resumedResults files o.resumeFrom suite fixtureSha256 selected
  return ⟨maxConcurrency, fixtureSha256, selected, resumed⟩

/-! ## The run -/

/-- `_result_from_observation` of what the executor returned. -/
def executeCase (files : Files) (executor : Executor ε) (case : EvaluationCase) :
    Except (RunError ε) EvaluationRunCaseResult :=
  match executor case with
  | .error e => .error (.executor e)
  | .ok o => do
    let digest ← caseDigest files case
    let observation ← checked (validatedObservation o)
    return ⟨case.id, case.version, digest, observation, false⟩

/-- `_execute_pending_cases` -/
def executePendingCases (files : Files) (executor : Executor ε) (schedule : Schedule)
    (pending : List EvaluationCase) : Except (RunError ε) (List EvaluationRunCaseResult) :=
  (schedule.order pending).mapM (executeCase files executor)

/-- The results in the order of the selected cases. -/
def collectResults (completed : List EvaluationRunCaseResult)
    (resumed : Dict Str EvaluationRunCaseResult) (selected : List EvaluationCase) :
    Except (RunError ε) (List EvaluationRunCaseResult) :=
  let byCaseId := (Dict.empty.update (completed.map fun r => (r.caseId, r))).update resumed.items
  selected.mapM fun case =>
    match byCaseId.get? case.id with
    | some result => .ok result
    | none => .error .key

/-- What a call answers, and the cases for which it calls the executor. -/
structure Outcome (ε : Type) where
  run : Except (RunError ε) EvaluationRun
  executed : List EvaluationCase

/-- The part of `run_evaluation_cases` after the budget check. -/
def completeRun (files : Files) (suite : EvaluationCaseSuite) (executor : Executor ε)
    (schedule : Schedule) (budget : Option IntOrFloat) (p : Prepared) :
    Except (RunError ε) EvaluationRun := do
  let completed ← executePendingCases files executor schedule p.pending
  let results ← collectResults completed p.resumed p.selected
  return {
    schemaVersion := evaluationRunSchemaVersion
    suiteId := suite.suiteId
    fixtureSha256 := p.fixtureSha256
    selectedCaseIds := p.selected.map (·.id)
    maxExpectedCost := budget
    maxConcurrency := p.maxConcurrency
    results := results }

/-- `run_evaluation_cases` -/
def runEvaluationCases (files : Files) (suite : EvaluationCaseSuite) (executor : Executor ε)
    (schedule : Schedule) (o : RunOptions) : Outcome ε :=
  match prepareRun files suite o with
  | .error e => ⟨.error e, []⟩
  | .ok p =>
    match checkBudget o.maxExpectedCost p.pending with
    | .error e => ⟨.error e, []⟩
    | .ok () => ⟨completeRun files suite executor schedule o.maxExpectedCost p, p.pending⟩

end

end QaCopilot.Evaluation
