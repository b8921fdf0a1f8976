import QaCopilot.Evaluation.Runner
import QaCopilot.Lib.Table
import QaCopilot.Python.JsonIndent

/-!
# Run reports

The JSON text of a run, and the decoder that checks every field of a report before it is used
again.
-/

namespace QaCopilot.Evaluation

open Python Results

/-! ## Encoding -/

def observationKeys : List String :=
  ["boundary", "side_effects", "ground_truth_ids", "source_references", "cost"]

def resultKeys : List String :=
  ["case_id", "case_version", "case_sha256", "observation", "reused"]

def runKeys : List String :=
  ["schema_version", "suite_id", "fixture_sha256", "selected_case_ids", "max_expected_cost",
    "max_concurrency", "results"]

def EvaluationObservation.toItems (o : EvaluationObservation) : List (Str × Json) :=
  [(lit "boundary", .str o.boundary),
    (lit "side_effects", .dict (o.sideEffects.items.map fun i => (i.1, i.2.toJson))),
    (lit "ground_truth_ids", texts o.groundTruthIds),
    (lit "source_references", texts o.sourceReferences),
    (lit "cost", o.cost.toJson)]

def EvaluationRunCaseResult.toItems (r : EvaluationRunCaseResult) : List (Str × Json) :=
  [(lit "case_id", .str r.caseId),
    (lit "case_version", .int r.caseVersion),
    (lit "case_sha256", .str r.caseSha256),
    (lit "observation", .dict r.observation.toItems),
    (lit "reused", .bool r.reused)]

def budgetJson : Option IntOrFloat → Json
  | none => .null
  | some cost => cost.toJson

def EvaluationRun.toItems (r : EvaluationRun) : List (Str × Json) :=
  [(lit "schema_version", .str r.schemaVersion),
    (lit "suite_id", .str r.suiteId),
    (lit "fixture_sha256", .str r.fixtureSha256),
    (lit "selected_case_ids", texts r.selectedCaseIds),
    (lit "max_expected_cost", budgetJson r.maxExpectedCost),
    (lit "max_concurrency", .int r.maxConcurrency),
    (lit "results", .list (r.results.map fun result => .dict result.toItems))]

/-- `asdict(run)` -/
def EvaluationRun.toJson (r : EvaluationRun) : Json := .dict r.toItems

/-- `separators=(",", ": ")` -/
def reportDumps : DumpsOptions := ⟨true, true, lit ",", lit ": "⟩

/-- `EvaluationRun.as_json` -/
def EvaluationRun.asJson (r : EvaluationRun) : Except DumpsError Str := do
  let text ← dumpsIndent reportDumps 2 0 r.toJson.sorted
  return text ++ lit "\n"

/-! ## Decoding -/

/-- `_require_non_negative_number` -/
def requireFiniteNumber (value : Object) (label : String) : Checked IntOrFloat :=
  requireNumber " must be a finite non-negative number" value label

/-- `_optional_non_negative_number` -/
def optionalNumber (value : Object) (label : String) : Checked (Option IntOrFloat) :=
  match value with
  | .none => .ok none
  | value => do return some (← requireFiniteNumber value label)

def requireBool (value : Object) (label : String) : Checked Bool :=
  match value with
  | .bool b => .ok b
  | _ => reject (label ++ " must be a boolean")

/-- `_observation_from_mapping` -/
def observationFromMapping (value : Object) (label : String) : Checked EvaluationObservation := do
  let observation ← requireMapping value label
  requireExactFields observation (observationKeys.map lit) label
  let sideEffects ← requireMapping (observation.get "side_effects") (label ++ ".side_effects")
  rejectWhen (!decide (sideEffects.keys ⊆ sideEffectFieldNames.map lit ∧
      sideEffectFieldNames.map lit ⊆ sideEffects.keys))
    (label ++ ".side_effects must use the exact side-effects/v1 fields")
  let boundary ← requireText (observation.get "boundary") (label ++ ".boundary")
  let counts ← readCounts sideEffects (label ++ ".side_effects")
  let groundTruthIds ← requireDistinctTextList (observation.get "ground_truth_ids")
    (label ++ ".ground_truth_ids") false
  let sourceReferences ← requireDistinctTextList (observation.get "source_references")
    (label ++ ".source_references") false
  let cost ← requireFiniteNumber (observation.get "cost") (label ++ ".cost")
  validatedObservation {
    boundary := boundary
    sideEffects := byFieldName fun name => .int (counts name)
    groundTruthIds := groundTruthIds
    sourceReferences := sourceReferences
    cost := cost }

/-- `_result_from_mapping` -/
def resultFromMapping (value : Object) (index : Nat) : Checked EvaluationRunCaseResult := do
  let label := indexed "results" index
  let result ← requireMapping value label
  requireExactFields result (resultKeys.map lit) label
  let reused ← requireBool (result.get "reused") (label ++ ".reused")
  let caseId ← requireText (result.get "case_id") (label ++ ".case_id")
  let caseVersion ← requirePositiveInteger (result.get "case_version") (label ++ ".case_version")
  let caseSha256 ← requireSha256 (result.get "case_sha256") (label ++ ".case_sha256")
  let observation ← observationFromMapping (result.get "observation") (label ++ ".observation")
  return ⟨caseId, caseVersion, caseSha256, observation, reused⟩

/-- The part of `evaluation_run_from_json` after the JSON decoder. -/
def evaluationRunFromObject (raw : Object) : Checked EvaluationRun := do
  let report ← requireMapping raw "Evaluation run report"
  requireExactFields report (runKeys.map lit) "Evaluation run report"
  let schemaVersion ← requireText (report.get "schema_version") "schema_version"
  rejectWhen (schemaVersion ≠ evaluationRunSchemaVersion)
    "Resume report has an unsupported schema version"
  let fixtureSha256 ← requireSha256 (report.get "fixture_sha256") "fixture_sha256"
  let maxConcurrency ← requirePositiveInteger (report.get "max_concurrency") "max_concurrency"
  let maxExpectedCost ← optionalNumber (report.get "max_expected_cost") "max_expected_cost"
  let selectedCaseIds ← requireDistinctTextList (report.get "selected_case_ids")
    "selected_case_ids" false
  let records ← requireList (report.get "results") "results"
  let results ← records.zipIdx.mapM fun (record, index) => resultFromMapping record index
  rejectWhen (!decide (results.map (·.caseId)).Nodup)
    "Resume report contains duplicate case results"
  let suiteId ← requireText (report.get "suite_id") "suite_id"
  return {
    schemaVersion := schemaVersion
    suiteId := suiteId
    fixtureSha256 := fixtureSha256
    selectedCaseIds := selectedCaseIds
    maxExpectedCost := maxExpectedCost
    maxConcurrency := maxConcurrency
    results := results }

/-- `evaluation_run_from_json`, under a recursion limit of the JSON decoder. -/
def evaluationRunFromJson (ε : Type) (limit : Nat) (serialized : Str) :
    Except (RunError ε) EvaluationRun :=
  match loads limit serialized with
  | .ok v => checked (evaluationRunFromObject v.toObject)
  | .error .decode => rejectRun "Evaluation run report is not valid JSON"
  | .error .value => .error .value
  | .error .recursion => .error .recursion

/-! ## Reading fields of a sorted value -/

/-- The fields of a dict with sorted keys. -/
def sortedFields (items : List (Str × Json)) : Fields :=
  (sortItems (Json.sortedItems items)).map fun i => (i.1, i.2.toObject)

theorem fields?_toObject (items : List (Str × Json)) :
    (Json.dict items).toObject.fields? = some (items.map fun i => (i.1, i.2.toObject)) := by
  rw [Json.toObject, Object.fields?, toItems_eq]
  refine mapM_some ?_
  rw [List.map_map, List.map_map]
  rfl

theorem fields?_sorted (items : List (Str × Json)) :
    (Json.dict items).sorted.toObject.fields? = some (sortedFields items) :=
  fields?_toObject _

theorem keys_sortedFields (items : List (Str × Json)) :
    (sortedFields items).keys.Perm (items.map (·.1)) := by
  have perm := (sortItems_perm (Json.sortedItems items)).map (·.1)
  rw [sortedItems_keys] at perm
  rw [Fields.keys, sortedFields, List.map_map]
  exact perm

theorem get_sortedFields {items : List (Str × Json)} (distinct : (items.map (·.1)).Nodup)
    (key : String) (v : Json) (listed : (lit key, v) ∈ items) :
    (sortedFields items).get key = v.sorted.toObject := by
  have distinct' : ((sortedFields items).map (·.1)).Nodup :=
    (keys_sortedFields items).nodup_iff.mpr distinct
  have here : (lit key, v.sorted.toObject) ∈ sortedFields items := by
    refine List.mem_map.mpr ⟨(lit key, v.sorted), ?_, rfl⟩
    rw [(sortItems_perm _).mem_iff, sortedItems_eq]
    exact List.mem_map.mpr ⟨_, listed, rfl⟩
  rw [Fields.get, (Table.find?_key distinct').mpr ⟨here, rfl⟩]
  rfl

theorem requireExactFields_ok {fields : Fields} {expected : List Str} {label : String}
    (same : fields.keys.Perm expected) : requireExactFields fields expected label = .ok () := by
  have missing : expected.filter (· ∉ fields.keys) = [] := by
    refine List.filter_eq_nil_iff.mpr fun k hk => ?_
    simpa using same.mem_iff.mpr hk
  have unexpected : fields.keys.filter (· ∉ expected) = [] := by
    refine List.filter_eq_nil_iff.mpr fun k hk => ?_
    simpa using same.mem_iff.mp hk
  simp only [requireExactFields, missing, unexpected]
  rfl

theorem requireMapping_sorted (items : List (Str × Json)) (label : String) :
    requireMapping (Json.dict items).sorted.toObject label = .ok (sortedFields items) := by
  rw [requireMapping, fields?_sorted]

theorem toObject_texts (values : List Str) :
    (texts values).sorted.toObject = .list (values.map .str) := by
  rw [texts, Json.sorted, Json.toObject, toObjects_eq, sortedList_eq, List.map_map, List.map_map]
  rfl

theorem requireDistinctTextList_ok {values : List Str} (trimmed : ∀ s ∈ values, Trimmed s)
    (distinct : values.Nodup) (label : String) :
    requireDistinctTextList (.list (values.map .str)) label false = .ok values := by
  have read : (values.map Object.str).mapM (fun item => requireText item (label ++ " item")) =
      .ok values := by
    rw [List.mapM_map]
    exact mapM_self fun s hs => requireText_of_trimmed (trimmed s hs) _
  refine bind_ok.mpr ⟨_, rfl, bind_ok.mpr ⟨values, read, bind_ok.mpr ⟨(), rfl, bind_ok.mpr
    ⟨(), rejectWhen_ok.mpr (by simpa using distinct), rfl⟩⟩⟩⟩

theorem requireNumber_ok {cost : IntOrFloat} (accepted : cost.nonNegative = .ok true)
    (noNumber label : String) :
    requireNumber noNumber cost.toJson.sorted.toObject label = .ok cost := by
  cases cost with
  | bool b => cases accepted
  | int n =>
    have read : requireNumber noNumber (.int n) label = (do
        if ← orOverflow (IntOrFloat.int n).nonNegative then return IntOrFloat.int n
        reject (label ++ " must be a finite non-negative number")) := rfl
    exact read.trans (by rw [accepted]; rfl)
  | float x =>
    have read : requireNumber noNumber (.float x) label = (do
        if ← orOverflow (IntOrFloat.float x).nonNegative then return IntOrFloat.float x
        reject (label ++ " must be a finite non-negative number")) := rfl
    exact read.trans (by rw [accepted]; rfl)

theorem requirePositiveInteger_ok {n : Int} (positive : 1 ≤ n) (label : String) :
    requirePositiveInteger (.int n) label = .ok n := by
  have read : requireNonNegativeInteger (.int n) label = .ok n := if_neg (by omega)
  exact bind_ok.mpr ⟨n, read, bind_ok.mpr ⟨(), rejectWhen_ok.mpr (by simp; omega), rfl⟩⟩

theorem requireSha256_ok {s : Str} (digest : isDigest s = true) (trimmed : Trimmed s)
    (label : String) : requireSha256 (.str s) label = .ok s :=
  bind_ok.mpr ⟨s, requireText_of_trimmed trimmed label, bind_ok.mpr
    ⟨(), rejectWhen_ok.mpr (by simp [digest]), rfl⟩⟩

theorem lookup_zip_map {β : Type} (f : String → β) {names : List String} {name : String}
    (listed : name ∈ names) : (names.zip (names.map f)).lookup name = some (f name) := by
  induction names with
  | nil => cases listed
  | cons first names ih =>
    rw [List.map_cons, List.zip_cons_cons, List.lookup_cons]
    by_cases same : name = first
    · rw [same, BEq.rfl]
    · rw [beq_false_of_ne same]
      exact ih ((List.mem_cons.mp listed).resolve_left same)

theorem readCounts_ok {effects : Fields} (label : String) {count : String → Int}
    (listed : ∀ name ∈ sortedFieldNames, effects.get name = .int (count name) ∧ 0 ≤ count name) :
    ∃ counts, readCounts effects label = .ok counts ∧
      ∀ name ∈ sortedFieldNames, counts name = count name := by
  have read : sortedFieldNames.mapM (fun name => requireNonNegativeInteger (effects.get name)
      (label ++ "." ++ name)) = .ok (sortedFieldNames.map count) := by
    refine mapM_of_map fun name hname => ?_
    rw [(listed name hname).1]
    exact if_neg (by have := (listed name hname).2; omega)
  refine ⟨_, bind_ok.mpr ⟨_, read, rfl⟩, fun name hname => ?_⟩
  rw [lookup_zip_map count hname]
  rfl

/-! ## Valid observations, results and runs -/

theorem nodup_names {names : List String} (distinct : names.Nodup) : (names.map lit).Nodup :=
  distinct.map lit_injective

theorem nodup_observationItems (o : EvaluationObservation) : (o.toItems.map (·.1)).Nodup :=
  nodup_names (show observationKeys.Nodup by decide)

theorem nodup_resultItems (r : EvaluationRunCaseResult) : (r.toItems.map (·.1)).Nodup :=
  nodup_names (show resultKeys.Nodup by decide)

theorem nodup_runItems (r : EvaluationRun) : (r.toItems.map (·.1)).Nodup :=
  nodup_names (show runKeys.Nodup by decide)

theorem EvaluationObservation.Valid.decoded {o : EvaluationObservation} (valid : o.Valid)
    (label : String) :
    observationFromMapping (Json.dict o.toItems).sorted.toObject label = .ok o := by
  have field := get_sortedFields (nodup_observationItems o)
  obtain ⟨count, same⟩ := valid.sideEffects
  have names : (o.sideEffects.items.map fun i => (i.1, i.2.toJson)).map (·.1) =
      sortedFieldNames.map lit := by
    rw [List.map_map, ← keys_byFieldName fun name => IntOrFloat.int (count name), ← same]
    rfl
  have keys := keys_sortedFields (o.sideEffects.items.map fun i => (i.1, i.2.toJson))
  rw [names] at keys
  have effects : ∀ name ∈ sortedFieldNames,
      (sortedFields (o.sideEffects.items.map fun i => (i.1, i.2.toJson))).get name =
        .int (count name) ∧ (0 : Int) ≤ count name := by
    intro name hname
    have listed : (lit name, (IntOrFloat.int (count name)).toJson) ∈
        o.sideEffects.items.map fun i => (i.1, i.2.toJson) := by
      rw [same, byFieldName, List.map_map]
      exact List.mem_map.mpr ⟨name, hname, rfl⟩
    exact ⟨get_sortedFields (names ▸ nodup_sortedFieldNames) name _ listed, Int.natCast_nonneg _⟩
  obtain ⟨counts, read, agree⟩ := readCounts_ok (label ++ ".side_effects") effects
  have exact' : (sortedFields (o.sideEffects.items.map fun i => (i.1, i.2.toJson))).keys ⊆
      sideEffectFieldNames.map lit ∧ sideEffectFieldNames.map lit ⊆
      (sortedFields (o.sideEffects.items.map fun i => (i.1, i.2.toJson))).keys :=
    ⟨(keys.trans (sortedFieldNames_perm.map lit)).subset,
      (keys.trans (sortedFieldNames_perm.map lit)).symm.subset⟩
  have whole : o = {
      boundary := o.boundary
      sideEffects := byFieldName fun name => .int (counts name)
      groundTruthIds := o.groundTruthIds
      sourceReferences := o.sourceReferences
      cost := o.cost } := by
    have effects' : (byFieldName fun name => IntOrFloat.int (counts name)) = o.sideEffects := by
      rw [same]
      exact byFieldName_congr fun name hname => by rw [agree name hname]
    rw [effects']
  refine bind_ok.mpr ⟨_, requireMapping_sorted _ _, bind_ok.mpr ⟨(), requireExactFields_ok
    (keys_sortedFields _), bind_ok.mpr ⟨_, ?_, bind_ok.mpr ⟨(), rejectWhen_ok.mpr ?_,
    bind_ok.mpr ⟨o.boundary, ?_, bind_ok.mpr ⟨counts, read, bind_ok.mpr ⟨o.groundTruthIds, ?_,
    bind_ok.mpr ⟨o.sourceReferences, ?_, bind_ok.mpr ⟨o.cost, ?_, ?_⟩⟩⟩⟩⟩⟩⟩⟩⟩
  · rw [field "side_effects" (.dict (o.sideEffects.items.map fun i => (i.1, i.2.toJson))) (by simp [EvaluationObservation.toItems])]
    exact requireMapping_sorted _ _
  · simpa using exact'
  · rw [field "boundary" (.str o.boundary) (by simp [EvaluationObservation.toItems])]
    exact requireText_of_trimmed valid.boundary _
  · rw [field "ground_truth_ids" (texts o.groundTruthIds) (by simp [EvaluationObservation.toItems]), toObject_texts]
    exact requireDistinctTextList_ok valid.groundTruthIds.1 valid.groundTruthIds.2 _
  · rw [field "source_references" (texts o.sourceReferences) (by simp [EvaluationObservation.toItems]), toObject_texts]
    exact requireDistinctTextList_ok valid.sourceReferences.1 valid.sourceReferences.2 _
  · rw [field "cost" o.cost.toJson (by simp [EvaluationObservation.toItems])]
    exact requireNumber_ok valid.cost _ _
  · rw [← whole]
    exact valid.validated

/-- A digest as a run holds it. -/
def Digest (s : Str) : Prop := isDigest s = true ∧ Trimmed s

structure EvaluationRunCaseResult.Valid (r : EvaluationRunCaseResult) : Prop where
  caseId : Trimmed r.caseId
  caseVersion : 1 ≤ r.caseVersion
  caseSha256 : Digest r.caseSha256
  observation : r.observation.Valid

structure EvaluationRun.Valid (r : EvaluationRun) : Prop where
  schemaVersion : r.schemaVersion = evaluationRunSchemaVersion
  suiteId : Trimmed r.suiteId
  fixtureSha256 : Digest r.fixtureSha256
  selectedCaseIds : (∀ s ∈ r.selectedCaseIds, Trimmed s) ∧ r.selectedCaseIds.Nodup
  maxExpectedCost : ∀ cost, r.maxExpectedCost = some cost → cost.nonNegative = .ok true
  maxConcurrency : 1 ≤ r.maxConcurrency
  results : ∀ result ∈ r.results, result.Valid
  distinct : (r.results.map (·.caseId)).Nodup

theorem EvaluationRunCaseResult.Valid.decoded {r : EvaluationRunCaseResult} (valid : r.Valid)
    (index : Nat) : resultFromMapping (Json.dict r.toItems).sorted.toObject index = .ok r := by
  have field := get_sortedFields (nodup_resultItems r)
  refine bind_ok.mpr ⟨_, requireMapping_sorted _ _, bind_ok.mpr ⟨(), requireExactFields_ok
    (keys_sortedFields _), bind_ok.mpr ⟨r.reused, ?_, bind_ok.mpr ⟨r.caseId, ?_,
    bind_ok.mpr ⟨r.caseVersion, ?_, bind_ok.mpr ⟨r.caseSha256, ?_, bind_ok.mpr
    ⟨r.observation, ?_, rfl⟩⟩⟩⟩⟩⟩⟩
  · rw [field "reused" (.bool r.reused) (by simp [EvaluationRunCaseResult.toItems])]
    rfl
  · rw [field "case_id" (.str r.caseId) (by simp [EvaluationRunCaseResult.toItems])]
    exact requireText_of_trimmed valid.caseId _
  · rw [field "case_version" (.int r.caseVersion) (by simp [EvaluationRunCaseResult.toItems])]
    exact requirePositiveInteger_ok valid.caseVersion _
  · rw [field "case_sha256" (.str r.caseSha256) (by simp [EvaluationRunCaseResult.toItems])]
    exact requireSha256_ok valid.caseSha256.1 valid.caseSha256.2 _
  · rw [field "observation" (.dict r.observation.toItems)
      (by simp [EvaluationRunCaseResult.toItems])]
    exact valid.observation.decoded _

theorem optionalNumber_ok {budget : Option IntOrFloat}
    (accepted : ∀ cost, budget = some cost → cost.nonNegative = .ok true) (label : String) :
    optionalNumber (budgetJson budget).sorted.toObject label = .ok budget := by
  cases budget with
  | none => rfl
  | some cost =>
    have read : requireFiniteNumber cost.toJson.sorted.toObject label = .ok cost :=
      requireNumber_ok (accepted cost rfl) _ _
    cases cost with
    | bool b => cases accepted _ rfl
    | int n => exact bind_ok.mpr ⟨_, read, rfl⟩
    | float x => exact bind_ok.mpr ⟨_, read, rfl⟩

/-- The decoder takes the value of a valid run back to the run. -/
theorem EvaluationRun.Valid.decoded {r : EvaluationRun} (valid : r.Valid) :
    evaluationRunFromObject r.toJson.sorted.toObject = .ok r := by
  have field := get_sortedFields (nodup_runItems r)
  refine bind_ok.mpr ⟨_, requireMapping_sorted _ _, bind_ok.mpr ⟨(), requireExactFields_ok
    (keys_sortedFields _), bind_ok.mpr ⟨r.schemaVersion, ?_, bind_ok.mpr ⟨(), ?_,
    bind_ok.mpr ⟨r.fixtureSha256, ?_, bind_ok.mpr ⟨r.maxConcurrency, ?_,
    bind_ok.mpr ⟨r.maxExpectedCost, ?_, bind_ok.mpr ⟨r.selectedCaseIds, ?_,
    bind_ok.mpr ⟨r.results.map fun result => (Json.dict result.toItems).sorted.toObject, ?_,
    bind_ok.mpr ⟨r.results, mapM_zipIdx (fun result listed n => (valid.results result listed).decoded n) 0,
    bind_ok.mpr ⟨(), ?_,
    bind_ok.mpr ⟨r.suiteId, ?_, rfl⟩⟩⟩⟩⟩⟩⟩⟩⟩⟩⟩⟩
  · rw [field "schema_version" (.str r.schemaVersion) (by simp [EvaluationRun.toItems]),
      valid.schemaVersion]
    exact requireText_of_trimmed (by unfold Trimmed; decide +kernel) _
  · exact rejectWhen_ok.mpr (by simp [valid.schemaVersion])
  · rw [field "fixture_sha256" (.str r.fixtureSha256) (by simp [EvaluationRun.toItems])]
    exact requireSha256_ok valid.fixtureSha256.1 valid.fixtureSha256.2 _
  · rw [field "max_concurrency" (.int r.maxConcurrency) (by simp [EvaluationRun.toItems])]
    exact requirePositiveInteger_ok valid.maxConcurrency _
  · rw [field "max_expected_cost" (budgetJson r.maxExpectedCost)
      (by simp [EvaluationRun.toItems])]
    exact optionalNumber_ok valid.maxExpectedCost _
  · rw [field "selected_case_ids" (texts r.selectedCaseIds) (by simp [EvaluationRun.toItems]),
      toObject_texts]
    exact requireDistinctTextList_ok valid.selectedCaseIds.1 valid.selectedCaseIds.2 _
  · rw [field "results" (.list (r.results.map fun result => .dict result.toItems))
      (by simp [EvaluationRun.toItems])]
    simp only [Json.sorted, Json.toObject, toObjects_eq, sortedList_eq, List.map_map]
    rfl
  · exact rejectWhen_ok.mpr (by simpa using valid.distinct)
  · rw [field "suite_id" (.str r.suiteId) (by simp [EvaluationRun.toItems])]
    exact requireText_of_trimmed valid.suiteId _

end QaCopilot.Evaluation
