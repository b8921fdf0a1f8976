import QaCopilot.Lib.Results
import QaCopilot.Python.JsonRoundTrip

/-!
# Review labels

`evaluation_review_labels.py`: the label of one candidate output is validated and normalized, and
the fields on which reviewers must agree are named.

* `validateLabel_plain`: a validated label is a JSON object that `json.dumps` takes.
-/

namespace QaCopilot.Reviews

open QaCopilot.Python QaCopilot.Results

inductive SubjectKind where
  | finding
  | testCase
  | failureAnalysis
deriving DecidableEq

def SubjectKind.value : SubjectKind → Str
  | .finding => lit "finding"
  | .testCase => lit "test_case"
  | .failureAnalysis => lit "failure_analysis"

def labelSchemaVersion : Str := lit "evaluation-review-label/v1"

/-- `EvaluationReviewLabelValidationError`, by what its message names. -/
inductive LabelError where
  | schemaVersion
  | subjectKind
  | fields (missing unexpected : List Str)
  | notMapping (label : String)
  | notExactly (label : String) (keys : List String)
  | assessment (label key : String)
  | score (label : String)
  | expectedScore (score : Int)
  | notBoolean (label : String)
  | evidenceLocators
  | emptyText (label : String)
deriving DecidableEq

abbrev Payload := List (Str × Json)

def Payload.get (p : Payload) (key : Str) : Json := (p.lookup key).getD .null

/-- `set(a) == set(b)` -/
def sameMembers (a b : List Str) : Bool := a.all (b.contains ·) && b.all (a.contains ·)

def exactFields (p : Payload) (expected : List Str) : Except LabelError Unit :=
  if sameMembers (p.map (·.1)) expected then .ok ()
  else .error (.fields (expected.filter fun k => !(p.map (·.1)).contains k)
    ((p.map (·.1)).filter fun k => !expected.contains k))

def requiredText (v : Json) (label : String) : Except LabelError Str :=
  match v with
  | .str s => if strip s = [] then .error (.emptyText label) else .ok (strip s)
  | _ => .error (.emptyText label)

def requiredBool (v : Json) (label : String) : Except LabelError Bool :=
  match v with
  | .bool b => .ok b
  | _ => .error (.notBoolean label)

def requiredScore (v : Json) (label : String) : Except LabelError Int :=
  match v with
  | .int n => if n = 0 ∨ n = 1 ∨ n = 2 then .ok n else .error (.score label)
  | _ => .error (.score label)

/-- `_mapping`, and that its keys are exactly the expected ones. -/
def exactMapping (v : Json) (keys : List String) (label : String) : Except LabelError Payload :=
  match v with
  | .dict items =>
    if sameMembers (items.map (·.1)) (keys.map lit) then .ok items else .error (.notExactly label keys)
  | _ => .error (.notMapping label)

def assessments : List Str := [lit "meets", lit "partially_meets", lit "does_not_meet"]

/-- The assessments of the keys, which are given in their order. -/
def assessmentMapping (v : Json) (keys : List String) (label : String) :
    Except LabelError (List (Str × Str)) := do
  let mapping ← exactMapping v keys label
  keys.mapM fun key => do
    let assessment ← requiredText (mapping.get (lit key)) (label ++ "." ++ key)
    if assessments.contains assessment then return (lit key, assessment)
    else .error (.assessment label key)

def scoreMapping (v : Json) (keys : List String) (label : String) :
    Except LabelError (List (Str × Int)) := do
  let mapping ← exactMapping v keys label
  keys.mapM fun key => do
    return (lit key, ← requiredScore (mapping.get (lit key)) (label ++ "." ++ key))

def evidenceLocators (v : Json) : Except LabelError (List Str) :=
  match v with
  | .list (x :: xs) => (x :: xs).mapM fun locator => requiredText locator "Evidence locator"
  | _ => .error .evidenceLocators

/-- `dict[str, str]` and `list[str]` as values. -/
def ofTexts (items : List (Str × Str)) : Json := .dict (items.map fun i => (i.1, .str i.2))

def ofScores (items : List (Str × Int)) : Json := .dict (items.map fun i => (i.1, .int i.2))

def findingCriteria : List String :=
  ["category", "explanation", "material_issue", "source"]

def testCaseDimensions : List String :=
  ["evidence_and_traceability", "expected_result", "objective",
    "preconditions_and_input", "procedure_or_request"]

def failureAnalysisCriteria : List String :=
  ["alternatives_considered_when_material", "hypotheses_clearly_labeled",
    "likely_cause_plausible", "no_unsupported_root_cause_claim",
    "observations_match_evidence", "recommended_next_checks_actionable"]

/-- The score that the criteria of a finding leave. -/
def expectedScore (criteria : List (Str × Str)) (unsupported : Bool) : Int :=
  if unsupported || (criteria.map (·.2)).contains (lit "does_not_meet") then 0
  else if criteria.all (·.2 = lit "meets") then 2
  else 1

def validateFinding (p : Payload) : Except LabelError Payload := do
  exactFields p [lit "schema_version", lit "subject_kind", lit "score", lit "criteria",
    lit "unsupported_claim_present", lit "evidence_locators", lit "rationale"]
  let criteria ← assessmentMapping (p.get (lit "criteria")) findingCriteria "Finding criteria"
  let unsupported ← requiredBool (p.get (lit "unsupported_claim_present"))
    "unsupported_claim_present"
  let score ← requiredScore (p.get (lit "score")) "Finding score"
  if score ≠ expectedScore criteria unsupported then
    .error (.expectedScore (expectedScore criteria unsupported))
  let locators ← evidenceLocators (p.get (lit "evidence_locators"))
  let rationale ← requiredText (p.get (lit "rationale")) "Rationale"
  return [(lit "schema_version", .str labelSchemaVersion),
    (lit "subject_kind", .str SubjectKind.finding.value), (lit "score", .int score),
    (lit "criteria", ofTexts criteria), (lit "unsupported_claim_present", .bool unsupported),
    (lit "evidence_locators", .list (locators.map .str)), (lit "rationale", .str rationale)]

def validateTestCase (p : Payload) : Except LabelError Payload := do
  exactFields p [lit "schema_version", lit "subject_kind", lit "dimensions",
    lit "execution_policy_violation", lit "material_duplicate", lit "evidence_locators",
    lit "rationale"]
  let dimensions ← scoreMapping (p.get (lit "dimensions")) testCaseDimensions
    "Test-case dimensions"
  let violation ← requiredBool (p.get (lit "execution_policy_violation"))
    "execution_policy_violation"
  let duplicate ← requiredBool (p.get (lit "material_duplicate")) "material_duplicate"
  let total := (dimensions.map (·.2)).sum
  let accepted := dimensions.all (0 < ·.2) && 8 ≤ total && !violation && !duplicate
  let locators ← evidenceLocators (p.get (lit "evidence_locators"))
  let rationale ← requiredText (p.get (lit "rationale")) "Rationale"
  return [(lit "schema_version", .str labelSchemaVersion),
    (lit "subject_kind", .str SubjectKind.testCase.value), (lit "dimensions", ofScores dimensions),
    (lit "execution_policy_violation", .bool violation),
    (lit "material_duplicate", .bool duplicate), (lit "total_score", .int total),
    (lit "human_accepted", .bool accepted), (lit "evidence_locators", .list (locators.map .str)),
    (lit "rationale", .str rationale)]

def validateFailureAnalysis (p : Payload) : Except LabelError Payload := do
  exactFields p [lit "schema_version", lit "subject_kind", lit "criteria",
    lit "evidence_locators", lit "rationale"]
  let criteria ← assessmentMapping (p.get (lit "criteria")) failureAnalysisCriteria
    "Failure-analysis criteria"
  let locators ← evidenceLocators (p.get (lit "evidence_locators"))
  let rationale ← requiredText (p.get (lit "rationale")) "Rationale"
  return [(lit "schema_version", .str labelSchemaVersion),
    (lit "subject_kind", .str SubjectKind.failureAnalysis.value), (lit "criteria", ofTexts criteria),
    (lit "evidence_locators", .list (locators.map .str)), (lit "rationale", .str rationale)]

def Json.isStr (v : Json) (s : Str) : Bool :=
  match v with
  | .str t => t = s
  | _ => false

/-- `validate_evaluation_review_label` -/
def validateLabel (kind : SubjectKind) (p : Payload) : Except LabelError Payload :=
  if !Json.isStr (p.get (lit "schema_version")) labelSchemaVersion then .error .schemaVersion
  else if !Json.isStr (p.get (lit "subject_kind")) kind.value then .error .subjectKind
  else
    match kind with
    | .finding => validateFinding p
    | .testCase => validateTestCase p
    | .failureAnalysis => validateFailureAnalysis p

/-- `_MATERIAL_FIELD_PATHS_BY_SUBJECT_KIND` -/
def materialFieldPaths : SubjectKind → List Str
  | .finding =>
    [lit "/score", lit "/criteria/material_issue", lit "/criteria/category",
      lit "/criteria/source", lit "/criteria/explanation", lit "/unsupported_claim_present"]
  | .testCase =>
    [lit "/dimensions/objective", lit "/dimensions/preconditions_and_input",
      lit "/dimensions/procedure_or_request", lit "/dimensions/expected_result",
      lit "/dimensions/evidence_and_traceability", lit "/execution_policy_violation",
      lit "/material_duplicate"]
  | .failureAnalysis =>
    [lit "/criteria/observations_match_evidence", lit "/criteria/hypotheses_clearly_labeled",
      lit "/criteria/likely_cause_plausible",
      lit "/criteria/alternatives_considered_when_material",
      lit "/criteria/recommended_next_checks_actionable",
      lit "/criteria/no_unsupported_root_cause_claim"]

def isMaterialField (kind : SubjectKind) (path : Str) : Bool :=
  (materialFieldPaths kind).contains path

/-! ## What a validated label is -/

/-- A value that `json.dumps` takes and that nests no deeper than `depth`. -/
structure Plain (depth : Nat) (v : Json) : Prop where
  distinct : v.check .distinctKeys = true
  accepted : v.check DumpsOptions.compactUnicode.accepts = true
  shallow : v.depth ≤ depth

theorem plain_str (depth : Nat) (s : Str) : Plain depth (.str s) := ⟨rfl, rfl, Nat.zero_le depth⟩

theorem plain_bool (depth : Nat) (b : Bool) : Plain depth (.bool b) :=
  ⟨rfl, rfl, Nat.zero_le depth⟩

theorem plain_int (depth : Nat) {n : Int} (small : n.natAbs < 100) : Plain depth (.int n) := by
  have two : (digits n.natAbs).length ≤ 2 := (length_digits_le_iff (by decide)).mpr small
  exact ⟨rfl, decide_eq_true (Nat.le_trans two (by decide)), Nat.zero_le depth⟩

theorem plain_list {depth : Nat} {xs : List Json} (each : ∀ v ∈ xs, Plain depth v) :
    Plain (depth + 1) (.list xs) := by
  constructor
  · exact checkList_eq_true.mpr fun v hv => (each v hv).distinct
  · exact checkList_eq_true.mpr fun v hv => (each v hv).accepted
  · simp only [Json.depth, Nat.add_le_add_iff_right, depthList_le]
    exact fun v hv => (each v hv).shallow

theorem plain_dict {depth : Nat} {items : Payload} (keys : (items.map (·.1)).Nodup)
    (each : ∀ i ∈ items, Plain depth i.2) : Plain (depth + 1) (.dict items) := by
  constructor
  · simp only [Json.check, Bool.and_eq_true, checkItems_eq_true]
    exact ⟨by simpa [Check.distinctKeys] using keys, fun i hi => (each i hi).distinct⟩
  · simp only [Json.check, Bool.and_eq_true, checkItems_eq_true]
    exact ⟨rfl, fun i hi => (each i hi).accepted⟩
  · simp only [Json.depth, Nat.add_le_add_iff_right, depthItems_le]
    exact fun i hi => (each i hi).shallow

theorem plain_texts {items : List (Str × Str)} (keys : (items.map (·.1)).Nodup) :
    Plain 1 (ofTexts items) := by
  apply plain_dict
  · simpa [Function.comp_def] using keys
  · simp only [List.mem_map]
    rintro - ⟨i, -, rfl⟩
    exact plain_str 0 i.2

theorem plain_scores {items : List (Str × Int)} (keys : (items.map (·.1)).Nodup)
    (scores : ∀ i ∈ items, i.2.natAbs < 100) : Plain 1 (ofScores items) := by
  apply plain_dict
  · simpa [Function.comp_def] using keys
  · simp only [List.mem_map]
    rintro - ⟨i, hi, rfl⟩
    exact plain_int 0 (scores i hi)

theorem plain_locators (locators : List Str) : Plain 1 (.list (locators.map .str)) := by
  apply plain_list
  simp only [List.mem_map]
  rintro - ⟨s, -, rfl⟩
  exact plain_str 0 s

theorem assessmentMapping_keys {v : Json} {keys : List String} {label : String}
    {items : List (Str × Str)} (h : assessmentMapping v keys label = .ok items) :
    items.map (·.1) = keys.map lit := by
  obtain ⟨mapping, -, each⟩ := bind_ok.mp h
  have all := mapM_ok.mp each
  clear h each
  induction all with
  | nil => rfl
  | cons first later ih =>
    obtain ⟨assessment, -, made⟩ := bind_ok.mp first
    split at made
    · obtain rfl := Except.ok.inj made
      simp only [List.map_cons, ih]
    · cases made

theorem requiredScore_range {v : Json} {label : String} {n : Int}
    (h : requiredScore v label = .ok n) : n = 0 ∨ n = 1 ∨ n = 2 := by
  cases v with
  | int m =>
    rw [requiredScore] at h
    split at h
    · obtain rfl := Except.ok.inj h
      assumption
    · cases h
  | null | bool | float | str | list | dict => cases h

theorem scoreMapping_keys {v : Json} {keys : List String} {label : String}
    {items : List (Str × Int)} (h : scoreMapping v keys label = .ok items) :
    items.map (·.1) = keys.map lit ∧ ∀ i ∈ items, i.2 = 0 ∨ i.2 = 1 ∨ i.2 = 2 := by
  obtain ⟨mapping, -, each⟩ := bind_ok.mp h
  have all := mapM_ok.mp each
  clear h each
  induction all with
  | nil => simp
  | cons first later ih =>
    obtain ⟨score, range, made⟩ := bind_ok.mp first
    obtain rfl := Except.ok.inj made
    refine ⟨by simp only [List.map_cons, ih.1], ?_⟩
    intro i hi
    rcases List.mem_cons.mp hi with rfl | hi
    · exact requiredScore_range range
    · exact ih.2 i hi

theorem validateFinding_plain {p q : Payload} (h : validateFinding p = .ok q) :
    Plain 2 (.dict q) ∧ q ≠ [] := by
  obtain ⟨-, -, h⟩ := bind_ok.mp h
  obtain ⟨criteria, keys, h⟩ := bind_ok.mp h
  obtain ⟨unsupported, -, h⟩ := bind_ok.mp h
  obtain ⟨score, range, h⟩ := bind_ok.mp h
  split at h
  · cases h
  obtain ⟨locators, -, h⟩ := bind_ok.mp h
  obtain ⟨rationale, -, h⟩ := bind_ok.mp h
  obtain rfl := Except.ok.inj h
  refine ⟨plain_dict (by simp only [List.map_cons, List.map_nil]; decide) ?_, by simp⟩
  have texts : Plain 1 (ofTexts criteria) :=
    plain_texts (by rw [assessmentMapping_keys keys]; decide)
  have small : score.natAbs < 100 := by
    have := requiredScore_range range
    omega
  simp only [List.forall_mem_cons, List.not_mem_nil, false_implies, implies_true, and_true]
  exact ⟨plain_str 1 _, plain_str 1 _, plain_int 1 small, texts, plain_bool 1 _,
    plain_locators _, plain_str 1 _⟩

/-- The total of a few scores is small. -/
theorem sum_scores {items : List (Str × Int)}
    (scores : ∀ i ∈ items, i.2 = 0 ∨ i.2 = 1 ∨ i.2 = 2) :
    0 ≤ (items.map (·.2)).sum ∧ (items.map (·.2)).sum ≤ 2 * items.length := by
  induction items with
  | nil => simp
  | cons i items ih =>
    obtain ⟨first, others⟩ := List.forall_mem_cons.mp scores
    have := ih others
    simp only [List.map_cons, List.sum_cons, List.length_cons]
    omega

theorem validateTestCase_plain {p q : Payload} (h : validateTestCase p = .ok q) :
    Plain 2 (.dict q) ∧ q ≠ [] := by
  obtain ⟨-, -, h⟩ := bind_ok.mp h
  obtain ⟨dimensions, keys, h⟩ := bind_ok.mp h
  obtain ⟨violation, -, h⟩ := bind_ok.mp h
  obtain ⟨duplicate, -, h⟩ := bind_ok.mp h
  obtain ⟨locators, -, h⟩ := bind_ok.mp h
  obtain ⟨rationale, -, h⟩ := bind_ok.mp h
  obtain rfl := Except.ok.inj h
  refine ⟨plain_dict (by simp only [List.map_cons, List.map_nil]; decide) ?_, by simp⟩
  obtain ⟨keys, scores⟩ := scoreMapping_keys keys
  have values : Plain 1 (ofScores dimensions) := by
    apply plain_scores
    · rw [keys]
      decide
    · intro i hi
      have := scores i hi
      omega
  have total : (List.map (fun d : Str × Int => d.2) dimensions).sum.natAbs < 100 := by
    have sum := sum_scores scores
    have length := congrArg List.length keys
    simp only [List.length_map, testCaseDimensions, List.length_cons, List.length_nil] at length
    omega
  simp only [List.forall_mem_cons, List.not_mem_nil, false_implies, implies_true, and_true]
  exact ⟨plain_str 1 _, plain_str 1 _, values, plain_bool 1 _, plain_bool 1 _, plain_int 1 total,
    plain_bool 1 _, plain_locators _, plain_str 1 _⟩

theorem validateFailureAnalysis_plain {p q : Payload} (h : validateFailureAnalysis p = .ok q) :
    Plain 2 (.dict q) ∧ q ≠ [] := by
  obtain ⟨-, -, h⟩ := bind_ok.mp h
  obtain ⟨criteria, keys, h⟩ := bind_ok.mp h
  obtain ⟨locators, -, h⟩ := bind_ok.mp h
  obtain ⟨rationale, -, h⟩ := bind_ok.mp h
  obtain rfl := Except.ok.inj h
  refine ⟨plain_dict (by simp only [List.map_cons, List.map_nil]; decide) ?_, by simp⟩
  have texts : Plain 1 (ofTexts criteria) :=
    plain_texts (by rw [assessmentMapping_keys keys]; decide)
  simp only [List.forall_mem_cons, List.not_mem_nil, false_implies, implies_true, and_true]
  exact ⟨plain_str 1 _, plain_str 1 _, texts, plain_locators _, plain_str 1 _⟩

theorem validateLabel_plain {kind : SubjectKind} {p q : Payload}
    (h : validateLabel kind p = .ok q) : Plain 2 (.dict q) ∧ q ≠ [] := by
  rw [validateLabel.eq_def] at h
  split_ifs at h
  cases kind with
  | finding => exact validateFinding_plain h
  | testCase => exact validateTestCase_plain h
  | failureAnalysis => exact validateFailureAnalysis_plain h

end QaCopilot.Reviews
